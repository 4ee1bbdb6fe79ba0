import Std.Data.HashMap

/-!
# Names in scripts

A script names what it creates. A name can be used again and then stands for the new object.
-/

namespace EventKernel.Script

abbrev Names (α : Type) := Std.HashMap String α

end EventKernel.Script
