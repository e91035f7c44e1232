import Botgeddon.Arena.Buttons
import Botgeddon.Arena.Countdown
import Botgeddon.Arena.Deadlines
import Botgeddon.Arena.Isolation
import Botgeddon.Arena.MatchClock
import Botgeddon.Arena.OneChange
import Botgeddon.Arena.PauseToggle
import Botgeddon.Arena.Rest
import Botgeddon.Arena.Symmetry
import Botgeddon.Arena.Trails
import Botgeddon.Firmware.IndexSafety
import Botgeddon.Firmware.Language
import Botgeddon.Firmware.Overflow
import Botgeddon.Firmware.PowerLoss
import Botgeddon.Firmware.ReceiveQueue
import Botgeddon.Firmware.Refresh
import Botgeddon.Firmware.Tearing
import Botgeddon.LargeDigitDriver
import Botgeddon.Lost
import Botgeddon.Strip.LedSegment
import Botgeddon.Telemetry
