import Chatt.Analysis.Interleaving
import Chatt.Analysis.Recovery
import Chatt.Analysis.Media
import Chatt.Analysis.Records
import Chatt.Analysis.Handshake
import Chatt.Analysis.MessageIds
import Chatt.Analysis.RosterRun
import Chatt.Analysis.PagingRun
import Chatt.Analysis.HistoryRun
import Chatt.Analysis.Mutations
import Chatt.Analysis.DmRun
import Chatt.Analysis.Usernames
import Chatt.Analysis.VoiceRun
import Chatt.Analysis.Consent
import Chatt.Analysis.Tokenizer
import Chatt.Analysis.UploadIds
import Chatt.Analysis.FileServerRun
import Chatt.Analysis.Reference
import Chatt.Analysis.NetEq
import Chatt.Analysis.SampleRing
import Chatt.Analysis.EventQueue
import Chatt.Analysis.ResidentHistory
import Chatt.Analysis.MlsDelivery
