import DosConsole.Main
import DosConsole.Proofs.Path.Normal
import DosConsole.Proofs.Tree.Act
import DosConsole.Proofs.Text.Stripping
import DosConsole.Proofs.Line.Quoting
import DosConsole.Proofs.Command.Editing
import DosConsole.Proofs.Command.Change
import DosConsole.Proofs.Command.Orderly
import DosConsole.Proofs.Command.Refinement
import DosConsole.Proofs.Record.Language
import DosConsole.Proofs.Record.Reading
import DosConsole.Proofs.Console.Station
import DosConsole.Proofs.Snapshot.RoundTrip
import DosConsole.Proofs.Snapshot.Normalization
import DosConsole.Proofs.Disk.Replace
import DosConsole.Proofs.Console.Keeping
import DosConsole.Proofs.Console.Effect
import DosConsole.Proofs.Console.TypedBack
import DosConsole.Proofs.Console.Printing
import DosConsole.Proofs.Console.Session
import DosConsole.Proofs.Console.Transcript
import DosConsole.Proofs.Text.Lower
import DosConsole.Proofs.Console.Completing
import DosConsole.Proofs.Command.Recount
import DosConsole.Proofs.Console.Restart
import DosConsole.Proofs.Disk.Place
import DosConsole.Proofs.Console.Durable
import DosConsole.Proofs.Line.Splitting
import DosConsole.Proofs.Command.Refusal
import DosConsole.Proofs.Snapshot.Attempts
import DosConsole.Proofs.Console.Background
import DosConsole.Proofs.Command.Going
import DosConsole.Proofs.Tree.Splice
import DosConsole.Proofs.Tree.Verdict
import DosConsole.Proofs.Command.Undoing
import DosConsole.Proofs.Command.Independence
import DosConsole.Proofs.Command.Finding
import DosConsole.Proofs.History.Recall
import DosConsole.Proofs.Settings.Fields
import DosConsole.Proofs.Settings.Merging
import DosConsole.Proofs.Settings.Reading
import DosConsole.Proofs.Settings.Loading
import DosConsole.Proofs.Settings.Assigning
import DosConsole.Proofs.Settings.WholeNumber
import DosConsole.Proofs.Command.Registration
import DosConsole.Proofs.Settings.Memory
import DosConsole.Proofs.Settings.Setting
