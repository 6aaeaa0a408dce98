import LineShell.Main
import LineShell.Proofs.AbsentCommands
import LineShell.Proofs.ArgumentVectors
import LineShell.Proofs.ChildLives
import LineShell.Proofs.DeliveredBeforeStart
import LineShell.Proofs.ErrorCauses
import LineShell.Proofs.ExactDiagnostics
import LineShell.Proofs.ExactDispatch
import LineShell.Proofs.ExitStatus
import LineShell.Proofs.FailedMoves
import LineShell.Proofs.JoinedWords
import LineShell.Proofs.LimitedOutput
import LineShell.Proofs.LineReading
import LineShell.Proofs.LineTokens
import LineShell.Proofs.RejectedNames
import LineShell.Proofs.RunRecords
import LineShell.Proofs.UnheardDiagnostics
import LineShell.Proofs.UntouchedState
import LineShell.Proofs.WorkingDirectory
