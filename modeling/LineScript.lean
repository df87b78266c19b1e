import LineScript.App.Basic
import LineScript.Main
import LineScript.Proofs.Machine.Calls
import LineScript.Proofs.Symbols.Iteration
import LineScript.Proofs.Symbols.Typing
import LineScript.Proofs.Machine.Atomicity
import LineScript.Proofs.Machine.Faults
import LineScript.Proofs.Machine.References
import LineScript.Proofs.Machine.Hosting
import LineScript.Proofs.Machine.Safety
import LineScript.Proofs.Machine.Integrity
import LineScript.Proofs.Machine.Requests
import LineScript.Proofs.Machine.Restart
import LineScript.Proofs.Machine.Turn
import LineScript.Proofs.Machine.Suspension
import LineScript.Proofs.Machine.Reporting
import LineScript.Proofs.Machine.Injection
import LineScript.Proofs.Script.Checking
import LineScript.Proofs.Script.Grammar
import LineScript.Proofs.Script.Rendering
import LineScript.Proofs.Script.Comments
import LineScript.Proofs.Machine.Lines
import LineScript.Proofs.Machine.Budget
import LineScript.Proofs.Machine.Chain
import LineScript.Proofs.Machine.DataAndCode
import LineScript.Proofs.Script.Words
import LineScript.Proofs.Machine.Keywords
import LineScript.Proofs.Machine.Readback
import LineScript.Proofs.Machine.Ignoring
import LineScript.Proofs.Machine.Closing
import LineScript.Proofs.Machine.Instances
import LineScript.Proofs.Machine.Attachment
import LineScript.Proofs.Values.Comparison
import LineScript.Proofs.Arguments.Validation
import LineScript.Proofs.Symbols.Redeclaration
import LineScript.Proofs.Stores.Atomicity
import LineScript.Proofs.Machine.Limits
import LineScript.Proofs.Machine.Countdown
import LineScript.Proofs.Decimal.Whole
import LineScript.Proofs.Machine.Jumps
import LineScript.Proofs.Decimal.Numerals
import LineScript.Proofs.Values.Coercion
import LineScript.Proofs.Script.Loading
import LineScript.Proofs.Script.Groups
import LineScript.Proofs.Console.Grouping
import LineScript.Proofs.Machine.Reentry
import LineScript.Proofs.Pacer.Spacing
import LineScript.Proofs.Pane.Offsets
import LineScript.Proofs.Pane.Scrolling
