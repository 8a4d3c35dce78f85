import Multicast.Text.Blank
import Multicast.Text.LowerCase
/-!
Switches in settings. A switch of the service is on for `true`, `1` and `yes` in any case; the
switch of the span export knows only the first two and folds only the letters A to Z.
-/

namespace Multicast.Settings

/-- Whether the text switches a feature of the service on. -/
def flag (s : String) : Bool := ["true", "1", "yes"].contains (Text.lowerCase (Text.trim s))

/-- Whether the text switches the span export on. -/
def exportFlag (s : String) : Bool := ["true", "1"].contains (Text.lowerCaseAscii (Text.trim s))

end Multicast.Settings
