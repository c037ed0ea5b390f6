import ScriptSyntax.Diagnostic
import ScriptSyntax.Program
import ScriptSyntax.Tree.Checked
import ScriptSyntax.Proofs.Grouping.Linked
import ScriptSyntax.Proofs.Program.Faults
import ScriptSyntax.Proofs.Program.Precedence
import ScriptSyntax.Proofs.Program.Reading
import ScriptSyntax.Proofs.Program.RoundTrip
import ScriptSyntax.Proofs.Program.Spanning
import ScriptSyntax.Proofs.Scan.Covering
import ScriptSyntax.Proofs.Scan.Rendering
import ScriptSyntax.Proofs.Program.Brackets
import ScriptSyntax.Proofs.Program.Layout
import ScriptSyntax.Proofs.Program.Schema
import ScriptSyntax.Proofs.Program.Calls
import ScriptSyntax.Proofs.Record.Plain
import ScriptSyntax.Proofs.Editing.Edits
import ScriptSyntax.Proofs.Program.Concatenation
import ScriptSyntax.Proofs.Scan.Longest
import ScriptSyntax.Proofs.Grouping.Again
import ScriptSyntax.Proofs.Ownership.Entry
import ScriptSyntax.Proofs.Types.Spelling
import ScriptSyntax.Proofs.Scan.Transcript
import ScriptSyntax.Proofs.Program.Signs
import ScriptSyntax.Proofs.Program.Parentheses
import ScriptSyntax.Proofs.Program.Braces
import ScriptSyntax.Proofs.Editing.Mutations
import ScriptSyntax.Proofs.Report.Caret
import ScriptSyntax.Proofs.Scan.Words
import ScriptSyntax.Proofs.Report.Messages
import ScriptSyntax.Proofs.Record.Views
import ScriptSyntax.Proofs.Program.Locality
import ScriptSyntax.Proofs.Program.Consumption
