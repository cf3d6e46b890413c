import AlertU.Bench
import AlertU.BinaryFloat
import AlertU.Machine
import AlertU.MachineStep
import AlertU.Runs
import AlertU.ConfigPersist
import AlertU.Episode
import AlertU.LearnedRemote
import AlertU.Logs
import AlertU.MachineEpisode
import AlertU.MachinePanic
import AlertU.SessionPairing
import AlertU.PairingWindow
import AlertU.SessionWatch
import AlertU.SirenRace
import AlertU.SessionHandover
import AlertU.SessionSwap
import AlertU.GraceDelay
import AlertU.ConnectionPush
import AlertU.ConnectionPairing
import AlertU.TrayToggle
import AlertU.TrayConfig
import AlertU.TrayPairing
import AlertU.TraySaved
import AlertU.DeviceReaders
import AlertU.TimerLoop
import AlertU.FailStop
import AlertU.SocketOwners
import AlertU.SnapshotPrivacy
import AlertU.Stills
import AlertU.TraySession
import AlertU.DialogueReplies
import AlertU.ConfigReplay
import AlertU.RemoteAlias
import AlertU.LearnWindow
import AlertU.GenSounds
import AlertU.SettingsWatch
import AlertU.Arguments
import AlertU.AlsaOutputs
import AlertU.HotplugLoop
import AlertU.CtlContract
import AlertU.WireStream
import AlertU.TrayBackoff
import AlertU.SirenFailures
import AlertU.TrayCatchesUp
import AlertU.SessionFollow
import AlertU.DeviceList
import AlertU.Wav
import AlertU.Authorize
import AlertU.ConfigCrash
import AlertU.Startup
