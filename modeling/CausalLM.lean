import CausalLM.Backend.Either
import CausalLM.Backend.Scripted
import CausalLM.Decoder.Specimen
import CausalLM.Main
import CausalLM.Proofs.Decoder.Invariant
import CausalLM.Proofs.Decoder.Refinement
import CausalLM.Proofs.Generation.Fragments
import CausalLM.Proofs.Tokenizer.Pieces
import CausalLM.Proofs.Tokenizer.Merging
import CausalLM.Proofs.Text.Boundaries
import CausalLM.Proofs.Tokenizer.Segments
import CausalLM.Proofs.Tokenizer.Specials
import CausalLM.Proofs.Tokenizer.RoundTrip
import CausalLM.Proofs.Container.Agreement
import CausalLM.Proofs.Decoder.Restoration
import CausalLM.Proofs.Decoder.Compatibility
import CausalLM.Proofs.Generation.Course
import CausalLM.Proofs.Generation.Metering
import CausalLM.Proofs.Tokenizer.Indices
import CausalLM.Proofs.Generation.Alignment
import CausalLM.Proofs.Generation.Conservation
import CausalLM.Proofs.Generation.Progress
import CausalLM.Proofs.Generation.Upkeep
import CausalLM.Proofs.Generation.Refusal
import CausalLM.Proofs.Generation.Ingestion
import CausalLM.Proofs.Generation.Likeness
import CausalLM.Proofs.Generation.Continuation
import CausalLM.Proofs.Generation.Batching
import CausalLM.Proofs.Generation.Pausing
import CausalLM.Proofs.Generation.Sharing
import CausalLM.Proofs.Generation.Stopping
import CausalLM.Proofs.Container.Reader
import CausalLM.Proofs.Container.Prefix
import CausalLM.Proofs.Container.Probe
import CausalLM.Proofs.Container.Counts
import CausalLM.Proofs.Dictionary
import CausalLM.Proofs.WeightStore
import CausalLM.Proofs.Container.Footprint
import CausalLM.Proofs.Decoder.Accounting
import CausalLM.Proofs.Container.Placement
import CausalLM.Proofs.Sampling.Recency
import CausalLM.Proofs.Sampling.Greedy
import CausalLM.Proofs.Decoder.Saving
import CausalLM.Proofs.Container.Stack
import CausalLM.Proofs.Container.Nesting
import CausalLM.Proofs.Decoder.Assembly
import CausalLM.Proofs.WeightStore.Names
import CausalLM.Proofs.Generation.Options
import CausalLM.Proofs.Random
import CausalLM.Proofs.Container.Overflow
import CausalLM.Proofs.Container.Work
import CausalLM.Proofs.Decoder.Indexing
