import Shux.Core.Replay
import Shux.Core.PtyRun
import Shux.Core.Optimistic
import Shux.Core.Sequence
import Shux.Vt.Scrollback
import Shux.Vt.Recycle
import Shux.Vt.Freeze
import Shux.Vt.OscGrammar
import Shux.Vt.CaptureMask
import Shux.Vt.Budget
import Shux.ProgramStatus.Readout
import Shux.ProgramStatus.Generation
import Shux.Io.Kill
import Shux.Core.Undo
import Shux.Rpc.Watch
import Shux.Persist.RoundTrip
import Shux.Lens.AuditCrash
import Shux.Io.PasteRun
import Shux.Gate.Held
import Shux.Gate.Retry
import Shux.Gate.Crash
import Shux.Plugin.Killed
import Shux.Core.Fitted
import Shux.Core.Screens
import Shux.Core.Reversible
import Shux.Vt.DiffExact
import Shux.Vt.InsertChars
import Shux.Vt.SyncWindow
import Shux.Vt.RepeatSource
import Shux.Core.Resolve
import Shux.Core.Titles
import Shux.Pty.Quoting
import Shux.ProgramStatus.PairOrder
import Shux.Vt.Commands
import Shux.Vt.Stability
import Shux.Vt.Cast
import Shux.Pty.Abandoned
import Shux.Vt.Accounting
import Shux.Io.PasteCut
import Shux.Io.InputBudget
import Shux.Ui.CopySearch
import Shux.Ui.Borders
import Shux.Ui.KittyEmit
import Shux.Gate.Secrets
import Shux.Gate.StyleDeltas
import Shux.Core.Reload
import Shux.Attach.PasteTarget
import Shux.Attach.ShownFrames
import Shux.Ui.Notice
import Shux.Persist.Lowering
import Shux.Gate.StyleRuns
import Shux.Core.CatchUp
import Shux.ProgramStatus.Channel
