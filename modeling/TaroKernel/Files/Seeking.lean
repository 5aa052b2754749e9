import TaroKernel.Files.Positions

/-!
# Where a seek goes

`lseek` in integers: from the start, from the position or from the end, as long as the result is
within the bounds of the file. The functions that implement it differ in the bound, in which ways of
seeking they know, and `default_llseek` also in what it does with negative offsets.
-/

namespace Taro.Files

open Machine Signed

variable {δ : Type*}

/-! ### In integers -/

section

variable {o : OpenFile δ} {c : Cursor} {offset : LoffT} {t : ℤ}

end

end Taro.Files
