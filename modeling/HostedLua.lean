import HostedLua.Host.ErrorValue
import HostedLua.Main
import HostedLua.Proofs.Container.DeepCopy
import HostedLua.Proofs.Coroutine.Agreement
import HostedLua.Proofs.Coroutine.Death
import HostedLua.Proofs.Crossing.Isolation
import HostedLua.Proofs.Crossing.Refusal
import HostedLua.Proofs.Function.Invoke
import HostedLua.Proofs.Language.Validity
import HostedLua.Proofs.Script.Instance
import HostedLua.Session
import HostedLua.Version
import HostedLua.Proofs.Runner.Binding
import HostedLua.Proofs.Runner.CommandLine
import HostedLua.Proofs.Crossing.Strings
import HostedLua.Proofs.Table.Faults
import HostedLua.Proofs.Script.Metadata
import HostedLua.Proofs.Faults.Paths
import HostedLua.Proofs.Crossing.Foreign
import HostedLua.Proofs.Crossing.Unusable
import HostedLua.Proofs.Excerpt.Marking
import HostedLua.Proofs.Runner.Literal
import HostedLua.Proofs.Runner.Retry
import HostedLua.Proofs.Runner.Printing
import HostedLua.Proofs.Printer.Layout
import HostedLua.Proofs.Table.Intact
import HostedLua.Proofs.Printer.Depth
