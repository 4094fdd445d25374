/-
Decimal digits in texts.
-/

namespace TableSearch

structure Numeral where
  negative : Bool
  whole : List Nat
  /-- The digits after the point, if there is one. -/
  fraction : Option (List Nat)
  /-- The exponent, if there is one. -/
  exponent : Option Int

namespace Numeral

/-- The digits at the start of a text, and what follows them. -/
def spanDigits : List Char → List Nat × List Char
  | [] => ([], [])
  | c :: rest =>
      if c.isDigit then
        let (ds, after) := spanDigits rest
        ((c.toNat - 48) :: ds, after)
      else ([], c :: rest)

def digitsValue (ds : List Nat) : Nat :=
  ds.foldl (fun n d => n * 10 + d) 0

theorem length_spanDigits {cs after : List Char} {ds : List Nat}
    (h : spanDigits cs = (ds, after)) : ds.length + after.length = cs.length := by
  induction cs generalizing ds after with
  | nil =>
    simp only [spanDigits, Prod.mk.injEq] at h
    simp [← h.1, ← h.2]
  | cons c rest ih =>
    rw [spanDigits] at h
    split at h
    · simp only [Prod.mk.injEq] at h
      have : (spanDigits rest).1.length + (spanDigits rest).2.length = rest.length := ih rfl
      rw [← h.1, ← h.2]
      simp only [List.length_cons]
      omega
    · simp only [Prod.mk.injEq] at h
      simp [← h.1, ← h.2]

end Numeral
end TableSearch
