import Chiptune.Songbook.Writer
import Chiptune.Console.Transcript
import Chiptune.Graph.Recorder
import Chiptune.Main
import Chiptune.Proofs.SoloVoice
import Chiptune.Proofs.EngineNodes
import Chiptune.Proofs.PlayErrors
import Chiptune.Proofs.Sessions
import Chiptune.Proofs.Finishing
import Chiptune.Proofs.Turns
import Chiptune.Proofs.Passages
import Chiptune.Proofs.SessionRuns
import Chiptune.Proofs.Listener
import Chiptune.Proofs.Balance
import Chiptune.Proofs.Refusals
import Chiptune.Proofs.Casting
import Chiptune.Proofs.Rendering
import Chiptune.Proofs.NoteGrammar
import Chiptune.Proofs.NoteSpans
import Chiptune.Proofs.Score
import Chiptune.Proofs.DeviceFollows
import Chiptune.Proofs.NumberText
import Chiptune.Proofs.BookText
import Chiptune.Proofs.Bookkeeping
import Chiptune.Proofs.ProperEffects
import Chiptune.Proofs.Reloading
import Chiptune.Proofs.BlockSizes
import Chiptune.Proofs.Polling
import Chiptune.Proofs.StepHistory
import Chiptune.Proofs.UnheardNodes
import Chiptune.Proofs.NoteSpelling
import Chiptune.Proofs.ChainBuilding
import Chiptune.Proofs.ScanCuts
import Chiptune.Proofs.ForwardSteps
import Chiptune.Proofs.Headers
import Chiptune.Proofs.Commands
import Chiptune.Proofs.PassEnds
