import TinyShell.Command.PassedOver
import TinyShell.Main
import TinyShell.Proofs.Command.Diagnosis
import TinyShell.Proofs.Command.Dump
import TinyShell.Proofs.Command.Grammar
import TinyShell.Proofs.Command.Interchange
import TinyShell.Proofs.Command.Places
import TinyShell.Proofs.Rehearsal.Agreement
import TinyShell.Proofs.Rehearsal.Execution
import TinyShell.Proofs.Rehearsal.Sequence
import TinyShell.Proofs.Shell.Alone
import TinyShell.Proofs.Shell.Crossing
import TinyShell.Proofs.Shell.Custody
import TinyShell.Proofs.Shell.CutOff
import TinyShell.Proofs.Shell.Delivery
import TinyShell.Proofs.Shell.Heedless
import TinyShell.Proofs.Shell.InputAlone
import TinyShell.Proofs.Shell.Preparation
import TinyShell.Proofs.Shell.Redirections
import TinyShell.Proofs.Shell.Rounds
import TinyShell.Proofs.Shell.Wiring
import TinyShell.Proofs.Text.Numeral
import TinyShell.Rehearsal.Step
