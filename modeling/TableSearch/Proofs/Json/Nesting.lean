/-
Texts that nest too deeply.

An opening token adds one to the containers that are open and a closing one takes one away, so
how many are open after some tokens is their nesting (`Progress.opened_run`).  While more than 127
are open, the innermost is closed as unusable, and what is unusable spreads to all that lies around
it.  So a text is no value when it nests more deeply anywhere: `ofJson_nested`.
-/
import TableSearch.Proofs.Json.RoundTrip

namespace TableSearch
namespace Json

open Progress (deepest scalar? complete close)

variable {frames : List Frame} {n : Parsed} {t : Token} {ts : List Token} {p q : Progress}
  {Q : Parsed → Prop}

namespace Token

/-- How many containers a token opens; one that it closes counts against it. -/
def change : Token → ℤ
  | .openArray | .openObject => 1
  | .closeArray | .closeObject => -1
  | _ => 0

def nesting (ts : List Token) : ℤ :=
  (ts.map change).sum

theorem nesting_replicate (count : ℕ) : nesting (List.replicate count .openArray) = count := by
  simp [nesting, change]

theorem all?_replicate (count : ℕ) (rest : List Char) :
    all? (List.replicate count '[' ++ rest) =
      (all? rest).map (List.replicate count .openArray ++ ·) := by
  induction count with
  | zero => simp
  | succ count ih =>
    rw [List.replicate_succ, List.cons_append, all?_first (t := .openArray) rfl, ih, Option.map_map]
    rfl

end Token

namespace Progress

def opened : Progress → ℕ
  | .value frames => frames.length
  | .arrayStart frames => frames.length + 1
  | .afterItem _ frames => frames.length + 1
  | .objectStart frames => frames.length + 1
  | .entryStart _ frames => frames.length + 1
  | .colon _ _ frames => frames.length + 1
  | .afterEntry _ frames => frames.length + 1
  | .done _ => 0

theorem opened_complete (n : Parsed) (frames : List Frame) :
    (complete n frames).opened = frames.length := by
  match frames with
  | [] => rfl
  | .array _ :: _ => rfl
  | .object _ _ :: _ => rfl

theorem opened_close (n : Parsed) (frames : List Frame) :
    (close n frames).opened = frames.length := by
  rw [close_eq, opened_complete]

theorem change_of_scalar? (h : scalar? t = some n) : t.change = 0 := by
  cases t with
  | openArray | openObject | closeArray | closeObject => cases h
  | _ => rfl

theorem opened_step (h : Step p t q) : (q.opened : ℤ) = p.opened + t.change := by
  induction h with
  | scalar frames h =>
    rw [opened_complete, change_of_scalar? h]
    simp [opened]
  | firstItem _ ih => exact ih
  | noItems | closeArray | noEntries | closeObject =>
    rw [opened_close]
    simp [opened, Token.change]
  | _ => simp [opened, Token.change]

theorem opened_run (h : p.run? ts = some q) : (q.opened : ℤ) = p.opened + Token.nesting ts := by
  induction ts generalizing p with
  | nil =>
    cases h
    simp [Token.nesting]
  | cons t ts ih =>
    obtain ⟨r, hr, hq⟩ := Option.bind_eq_some_iff.mp h
    have hstep := opened_step (.of_step? hr)
    have hrest := ih hq
    simp only [Token.nesting, List.map_cons, List.sum_cons] at hrest ⊢
    omega

end Progress

/-! ## Too deep -/

/-- A container inside 127 others is closed as unusable. -/
theorem Spreads.close_deep (hQ : Spreads Q) (h : deepest < frames.length + 1) :
    (Progress.close n frames).Spoiled Q := by
  rw [Progress.close_eq, if_neg (by omega)]
  exact spoiled_complete (.inl hQ.unusable)

/-- While too many containers are open, no token mends it. -/
theorem Spreads.step_deep (hQ : Spreads Q) (h : Step p t q)
    (hp : p.Spoiled Q ∨ deepest < p.opened) : q.Spoiled Q ∨ deepest < q.opened := by
  rcases hp with hp | hp
  · exact .inl (hQ.step h hp)
  -- Only closing lowers the count, and the container that is closed then is unusable.
  · induction h with
    | scalar =>
      rw [Progress.opened_complete]
      exact .inr hp
    | openArray | openObject => exact .inr (Nat.lt_succ_of_lt hp)
    | firstItem _ ih => exact ih hp
    | nextItem | firstKey | nextKey | colon | nextEntry => exact .inr hp
    | noItems | closeArray | noEntries | closeObject => exact .inl (hQ.close_deep hp)

theorem Spreads.run_deep (hQ : Spreads Q) (h : p.run? ts = some q)
    (hp : p.Spoiled Q ∨ deepest < p.opened) : q.Spoiled Q ∨ deepest < q.opened := by
  induction ts generalizing p with
  | nil =>
    cases h
    exact hp
  | cons t ts ih =>
    obtain ⟨r, hr, hq⟩ := Option.bind_eq_some_iff.mp h
    exact ih hq (hQ.step_deep (.of_step? hr) hp)

/-- The tree of a text that nests too deeply has every property that spreads. -/
theorem ofText?_nested (hQ : Spreads Q) {text : String} {before after : List Token}
    (hts : Token.all? text.toList = some (before ++ after)) (hdeep : deepest < Token.nesting before)
    (h : Parsed.ofText? text = some n) : Q n := by
  obtain ⟨us, hus, hrun⟩ := ofText?_eq_some h
  cases hts.symm.trans hus
  rw [Progress.run?_append] at hrun
  obtain ⟨p, hp, hrun⟩ := Option.bind_eq_some_iff.mp hrun
  have hopened : (p.opened : ℤ) = 0 + Token.nesting before := Progress.opened_run hp
  rcases hQ.run_deep hrun (.inr (by omega)) with hspoiled | hopen
  · exact hspoiled
  · exact absurd hopen (Nat.not_lt_zero _)

end Json

namespace Value

open Json (Parsed Token)

/-- A text in which more than 127 containers are open at once is no value. -/
theorem ofJson_nested {text : String} {before after : List Token}
    (hts : Token.all? text.toList = some (before ++ after)) (hdeep : 127 < Token.nesting before)
    (v : Value) : ofJson text ≠ .ok v := by
  intro h
  obtain ⟨n, hn, hv⟩ := ofParsed_of_ofJson h
  exact Json.ofText?_nested spreads_refused hts hdeep hn v hv

end Value
end TableSearch
