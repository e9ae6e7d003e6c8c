import DavGateway.Http.Serve
import DavGateway.Proofs.Http.Fields
import DavGateway.Proofs.Text.Blank

/-!
# Lengths in header fields

A length that is written in decimal is read back. What is written has only ASCII digits, each of
which is one byte, stands for itself in a header field, and is no blank.
-/

namespace DavGateway

variable {digits : List Char} {n : Nat}

theorem Text.trim_digits (h : ∀ c ∈ digits, c.isDigit) : trim digits = digits :=
  trim_of_no_blank fun c hc => isBlank_of_isDigit (h c hc)

/-- A length that is written in decimal is what the request declares. -/
theorem Http.Serve.declaredLength_decimal {r : Request}
    (h : r.header? "content-length" = some (Bytes.ofText (toString n))) (hword : n < Text.wordLimit) :
    declaredLength r = .ok (some n) := by
  have hdigits : ∀ c ∈ Nat.toDigits 10 n, c.isDigit :=
    fun _ => Text.isDigit_of_mem_toDigits
  have hprintable : ∀ c ∈ Nat.toDigits 10 n, Text.IsPrintable c :=
    fun c hc => Text.isPrintable_of_isDigit (hdigits c hc)
  unfold declaredLength
  rw [h, Nat.toString_eq_ofList_toDigits]
  simp only [Request.visible?_printable hprintable, Option.bind_some, Text.trim_digits hdigits,
    Text.readWord?_toDigits hword]

end DavGateway
