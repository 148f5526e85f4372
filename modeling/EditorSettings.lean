import EditorSettings.Main
import EditorSettings.Proofs.CommandLine.Isolation
import EditorSettings.Proofs.Document.Canonical
import EditorSettings.Proofs.Document.Parsed
import EditorSettings.Proofs.Glob.Alternation
import EditorSettings.Proofs.Glob.Listing
import EditorSettings.Proofs.Glob.Ranges
import EditorSettings.Proofs.Glob.Unbracketed
import EditorSettings.Proofs.Glob.Widening
import EditorSettings.Proofs.Lookup.Merging
import EditorSettings.Proofs.Lookup.Reach
import EditorSettings.Proofs.Lookup.Refusals
import EditorSettings.Proofs.Lookup.Relocation
import EditorSettings.Proofs.Lookup.Roots
import EditorSettings.Proofs.Settings.Runs
import EditorSettings.Proofs.Version.Order
import EditorSettings.Proofs.Settings.Completion
import EditorSettings.Proofs.Glob.Pieces
import EditorSettings.Proofs.Glob.Captures
import EditorSettings.Proofs.Glob.Members
import EditorSettings.Proofs.Glob.BaseNames
import EditorSettings.Proofs.Glob.Repetition
import EditorSettings.Proofs.Glob.InStep
import EditorSettings.Proofs.Lookup.Anchoring
import EditorSettings.Proofs.Path.FilesAbove
import EditorSettings.Proofs.Lookup.Insertion
import EditorSettings.Proofs.Lookup.Commuting
import EditorSettings.Proofs.Lookup.FaultyPatterns
import EditorSettings.Proofs.Document.Concatenation
import EditorSettings.Proofs.Document.FirstFault
import EditorSettings.Proofs.Document.LineEnds
import EditorSettings.Proofs.Document.RootDeclaration
import EditorSettings.Proofs.Binary64.Integers
import EditorSettings.Proofs.Value.Integers
import EditorSettings.Proofs.Value.RoundTrip
import EditorSettings.Proofs.CommandLine.StandardInput
import EditorSettings.Proofs.Value.Reading
import EditorSettings.Proofs.Value.Caseless
import EditorSettings.Proofs.Binary64.Rounding
import EditorSettings.Proofs.Binary64.Shortest
import EditorSettings.Proofs.Binary64.Texts
import EditorSettings.Proofs.Value.Finite
import EditorSettings.Proofs.Glob.LiteralBraces
