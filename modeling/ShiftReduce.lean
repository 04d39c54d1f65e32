import ShiftReduce.Log
import ShiftReduce.Main
import ShiftReduce.Proofs.Grammar.Derivation
import ShiftReduce.Proofs.Tree.Derivation
import ShiftReduce.Proofs.Lookahead.Exploration
import ShiftReduce.Proofs.Lookahead.Inclusions
import ShiftReduce.Proofs.Lookahead.Origins
import ShiftReduce.Proofs.Lookahead.Exactness
import ShiftReduce.Proofs.Items.Closure
import ShiftReduce.Proofs.Items.Collection
import ShiftReduce.Proofs.Items.States
import ShiftReduce.Proofs.Items.ValidItems
import ShiftReduce.Proofs.Table.Merging
import ShiftReduce.Proofs.Table.Derived
import ShiftReduce.Proofs.Table.Filling
import ShiftReduce.Proofs.Table.Cells
import ShiftReduce.Proofs.Table.Exactness
import ShiftReduce.Proofs.Table.Paths
import ShiftReduce.Proofs.Run.Moves
import ShiftReduce.Proofs.Run.Stack
import ShiftReduce.Proofs.Run.Trajectory
import ShiftReduce.Proofs.Run.Bound
import ShiftReduce.Proofs.Tree.Assembly
import ShiftReduce.Proofs.Run.Walk
import ShiftReduce.Proofs.Run.Outcome
import ShiftReduce.Proofs.Language
import ShiftReduce.Proofs.Tree.Replay
import ShiftReduce.Proofs.Text.Words
import ShiftReduce.Proofs.Unambiguity
import ShiftReduce.Proofs.Run.UnitCycles
import ShiftReduce.Proofs.Run.Entered
import ShiftReduce.Proofs.Run.Acyclic
import ShiftReduce.Proofs.Run.Halting
import ShiftReduce.Proofs.Run.Driver
import ShiftReduce.Proofs.Run.Safety
import ShiftReduce.Proofs.Vocabulary.Interning
import ShiftReduce.Proofs.Grammar.Translation
import ShiftReduce.Proofs.Items.Canonical
import ShiftReduce.Proofs.Items.Prefixes
import ShiftReduce.Proofs.Run.Prefixes
import ShiftReduce.Proofs.Grammar.Isomorphism
import ShiftReduce.Proofs.Items.Isomorphism
import ShiftReduce.Proofs.Table.Isomorphism
import ShiftReduce.Proofs.Grammar.Renaming
import ShiftReduce.Proofs.Rearrangement
import ShiftReduce.Proofs.Items.LeastClosure
import ShiftReduce.Proofs.Run.Faithful
import ShiftReduce.Proofs.Run.Verdicts
import ShiftReduce.Proofs.Run.Reductions
import ShiftReduce.Proofs.CommandLine.Parse
import ShiftReduce.Proofs.Session
import ShiftReduce.Proofs.Lookahead.SharedGuard
import ShiftReduce.Proofs.Tree.Rewriting
import ShiftReduce.Proofs.Vocabulary.Histories
import ShiftReduce.Proofs.Text.Spelling
import ShiftReduce.Proofs.Run.Tokens
import ShiftReduce.Proofs.Grammar.Labels
import ShiftReduce.Proofs.Listing.Lines
import ShiftReduce.Proofs.Listing.Rules
import ShiftReduce.Proofs.Listing.Grid
import ShiftReduce.Proofs.Table.Texts
import ShiftReduce.Proofs.Listing.Cells
import ShiftReduce.Proofs.Listing.Outline
import ShiftReduce.Proofs.Items.Sets
import ShiftReduce.Proofs.Listing.Items
