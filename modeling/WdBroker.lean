import WdBroker.MachineProofs
import WdBroker.CStringProofs
import WdBroker.ScanfProofs
import WdBroker.SnprintfProofs
import WdBroker.ClockProofs
import WdBroker.TableProofs
import WdBroker.ClientIDProofs
import WdBroker.ConfigProofs
import WdBroker.StatusProofs
import WdBroker.CommandProofs
import WdBroker.AuthorityProofs
import WdBroker.ReachProofs
import WdBroker.SupervisionProofs
import WdBroker.SessionProofs
import WdBroker.MainLoopProofs
import WdBroker.ProgramProofs
import WdBroker.StartUpProofs
import WdBroker.PrivilegeProofs
import WdBroker.InstancesProofs
import WdBroker.LatchProofs
import WdBroker.HeartbeatProofs
import WdBroker.RegisterProtocolProofs
import WdBroker.AccountingProofs
import WdBroker.AnnouncedProofs
import WdBroker.DeadlineProofs
import WdBroker.UniqueIDProofs
import WdBroker.RefinementProofs
import WdBroker.RegistryProofs
import WdBroker.PlacesProofs
import WdBroker.RebootProofs
import WdBroker.DeviceProofs
import WdBroker.DeadmanProofs
import WdBroker.WatchdogProofs
import WdBroker.QueueProofs
import WdBroker.EncodingProofs
import WdBroker.RepliesProofs
import WdBroker.TokensProofs
import WdBroker.RegisterGrammarProofs
import WdBroker.PacketProofs
import WdBroker.ConfigLineProofs
import WdBroker.SectionHeaderProofs
import WdBroker.ConfigValueProofs
import WdBroker.CommentProofs
import WdBroker.RenderProofs
import WdBroker.CtrlProofs
import WdBroker.UnregisterProofs
import WdBroker.DisplayProofs
import WdBroker.LibraryProofs
import WdBroker.LibrarySessionProofs
import WdBroker.ToolProofs
