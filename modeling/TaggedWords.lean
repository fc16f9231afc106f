import TaggedWords.Main
import TaggedWords.Execution.CommandLine
import TaggedWords.Execution.Program
import TaggedWords.Execution.Session
import TaggedWords.Word.Integer
import TaggedWords.Proofs.Heap.Runs
import TaggedWords.Proofs.Tree.Meaning
import TaggedWords.Proofs.Numeral.Decimal
import TaggedWords.Proofs.Walk.Exchange
import TaggedWords.Proofs.Tree.Grammar
import TaggedWords.Proofs.Tree.Lines
import TaggedWords.Proofs.Heap.Growth
import TaggedWords.Proofs.Heap.Storing
import TaggedWords.Proofs.Walk.Sides
import TaggedWords.Proofs.Execution.Leaving
import TaggedWords.Proofs.Execution.Slot
import TaggedWords.Proofs.Word.Fitting
import TaggedWords.Proofs.Walk.Preorder
import TaggedWords.Proofs.Execution.Nested
import TaggedWords.Proofs.Execution.Logging
import TaggedWords.Proofs.Walk.Reach
import TaggedWords.Proofs.Walk.Dangling
import TaggedWords.Proofs.Walk.Calls
import TaggedWords.Proofs.Walk.Ending
import TaggedWords.Proofs.Walk.InFull
import TaggedWords.Proofs.Walk.Locality
import TaggedWords.Proofs.Output.Limit
import TaggedWords.Proofs.Failure.Reading
import TaggedWords.Proofs.Options.Sizes
import TaggedWords.Proofs.Arena.Lookup
import TaggedWords.Proofs.Options.Precedence
import TaggedWords.Proofs.Walk.Visits
