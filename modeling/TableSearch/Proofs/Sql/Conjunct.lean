/-
The conjuncts of a condition's text.

The reader knows nothing of conditions.  `AND` binds weaker than any comparison, so a conjunct
ends before the next `AND`, unless that stands between quotes or in parentheses of its own.
Parentheses around a conjunct, or around several, begin where a conjunct may begin, and the
reader leaves them out; a text whose parentheses do not match has no conjuncts.

`conjuncts_sql` says what is read of a condition's text: the texts of its parts, whatever the
groups are in which they stand.
-/
import TableSearch.Proofs.Sql.Wording

namespace TableSearch
namespace Sql

inductive Standing where
  /-- Where a conjunct or a group may begin. -/
  | before
  /-- In a conjunct, so many parentheses deep. -/
  | inside (text : List Char) (nested : Nat)
  /-- Between quotes in a conjunct. -/
  | quoted (quote : Char) (text : List Char) (nested : Nat)
  /-- After a conjunct or a group. -/
  | after
  /-- Before the last characters of the word between two conjuncts, so many. -/
  | word (left : Nat)

/-- A conjunct ends before this, if it is in no parentheses of its own. -/
def stops : List Char → Bool
  | [] => true
  | ')' :: _ => true
  | ' ' :: 'A' :: 'N' :: 'D' :: ' ' :: _ => true
  | _ => false

namespace Standing

def enter (text : List Char) (nested : Nat) (c : Char) : Standing :=
  if c = '"' ∨ c = '\'' then .quoted c (text ++ [c]) nested
  else if c = '(' then .inside (text ++ [c]) (nested + 1)
  else if c = ')' then .inside (text ++ [c]) (nested - 1)
  else .inside (text ++ [c]) nested

/-- The next character, in so many groups, and before a rest that tells whether a conjunct ends.
A character that cannot stand here has no next standing. -/
def step (groups : Nat) (c : Char) (rest : List Char) : Standing → Option (Nat × Standing)
  | .before =>
      if c = '(' then some (groups + 1, .before)
      else if stops (c :: rest) then none
      else some (groups, enter [] 0 c)
  | .inside text nested => some (groups, enter text nested c)
  | .quoted quote text nested =>
      if c = quote then some (groups, .inside (text ++ [c]) nested)
      else some (groups, .quoted quote (text ++ [c]) nested)
  | .after =>
      if c = ')' then if groups = 0 then none else some (groups - 1, .after)
      else if stops (c :: rest) then some (groups, .word 4)
      else none
  | .word left => some (groups, if left = 1 then .before else .word (left - 1))

/-- The conjuncts of a text, from here on and in so many groups. -/
def read : Nat → Standing → List Char → Option (List (List Char))
  | groups, .after, [] => if groups = 0 then some [] else none
  | _, _, [] => none
  | groups, here, c :: rest =>
      match here.step groups c rest with
      | none => none
      | some (groups, .inside text 0) =>
          if stops rest then (read groups .after rest).map (text :: ·)
          else read groups (.inside text 0) rest
      | some (groups, next) => read groups next rest

def resume (groups : Nat) (text : List Char) (nested : Nat) (rest : List Char) :
    Option (List (List Char)) :=
  if nested = 0 ∧ stops rest = true then (read groups .after rest).map (text :: ·)
  else read groups (.inside text nested) rest

end Standing

/-- The conjuncts of a text, if its groups match. -/
def conjuncts (s : String) : Option (List String) :=
  (Standing.read 0 .before s.toList).map (List.map String.ofList)

namespace Standing

variable {groups nested : Nat} {text rest : List Char} {c quote : Char}

/-! ## Single characters -/

theorem read_inside {here : Standing} {groups' : Nat}
    (h : here.step groups c rest = some (groups', .inside text nested)) :
    read groups here (c :: rest) = resume groups' text nested rest := by
  rw [read, h]
  cases nested with
  | zero => simp [resume]
  | succ n => simp [resume]

theorem read_quoted {here : Standing} {groups' : Nat}
    (h : here.step groups c rest = some (groups', .quoted quote text nested)) :
    read groups here (c :: rest) = read groups' (.quoted quote text nested) rest := by
  rw [read, h]

def isPlain (c : Char) : Bool :=
  c != '"' && c != '\'' && c != '(' && c != ')'

theorem enter_plain (h : isPlain c = true) :
    enter text nested c = .inside (text ++ [c]) nested := by
  simp only [isPlain, Bool.and_eq_true, bne_iff_ne, ne_eq] at h
  simp [enter, h]

theorem not_stops {cs : List Char} (hclose : cs.head? ≠ some ')')
    (hspace : ∀ rest, cs ≠ ' ' :: 'A' :: rest) (hne : cs ≠ []) : stops cs = false := by
  unfold stops
  split
  · exact absurd rfl hne
  · exact absurd rfl hclose
  · exact absurd rfl (hspace _)
  · rfl

theorem resume_inside (h : nested = 0 → stops rest = false) :
    resume groups text nested rest = read groups (.inside text nested) rest := by
  unfold resume
  rw [if_neg]
  rintro ⟨hzero, hstops⟩
  rw [h hzero] at hstops
  cases hstops

/-- A character that is neither a quote nor a parenthesis continues a conjunct, unless it is the
space before an `AND`. -/
theorem resume_plain (h : isPlain c = true)
    (hspace : nested = 0 → c = ' ' → rest.head? ≠ some 'A') :
    resume groups text nested (c :: rest) = resume groups (text ++ [c]) nested rest := by
  have hgoes : nested = 0 → stops (c :: rest) = false := by
    intro hzero
    refine not_stops ?_ ?_ (List.cons_ne_nil c rest)
    · intro hclose
      cases hclose
      cases h
    · rintro rest' hcs
      cases hcs
      exact hspace hzero rfl rfl
  rw [resume_inside hgoes]
  exact read_inside (by rw [step, enter_plain h])

theorem resume_open :
    resume groups text nested ('(' :: rest) = resume groups (text ++ ['(']) (nested + 1) rest := by
  rw [resume_inside fun _ => rfl]
  exact read_inside rfl

theorem resume_close :
    resume groups text (nested + 1) (')' :: rest) = resume groups (text ++ [')']) nested rest := by
  have hgoes : nested + 1 = 0 → stops (')' :: rest) = false :=
    fun h => absurd h (Nat.succ_ne_zero nested)
  rw [resume_inside hgoes]
  exact read_inside rfl

theorem resume_quote (hquote : quote = '"' ∨ quote = '\'') :
    resume groups text nested (quote :: rest) =
      read groups (.quoted quote (text ++ [quote]) nested) rest := by
  rcases hquote with rfl | rfl
  · rw [resume_inside fun _ => rfl]
    exact read_quoted rfl
  · rw [resume_inside fun _ => rfl]
    exact read_quoted rfl

/-- Between quotes any text belongs to the conjunct. -/
theorem read_replaceChars (hquote : quote = '"' ∨ quote = '\'') (cs : List Char) :
    read groups (.quoted quote text nested)
        (Text.replaceChars quote [quote, quote] cs ++ quote :: rest) =
      resume groups (text ++ (Text.replaceChars quote [quote, quote] cs ++ [quote])) nested
        rest := by
  have hcloses : ∀ {text rest : List Char},
      read groups (.quoted quote text nested) (quote :: rest) =
        resume groups (text ++ [quote]) nested rest :=
    read_inside (by rw [step, if_pos rfl])
  induction cs generalizing text with
  | nil => exact hcloses
  | cons c cs ih =>
    by_cases hc : c = quote
    · have htext : Text.replaceChars quote [quote, quote] (c :: cs) =
          quote :: quote :: Text.replaceChars quote [quote, quote] cs := by
        simp [Text.replaceChars, hc]
      rw [htext, List.cons_append, List.cons_append, hcloses, resume_quote hquote, ih]
      simp only [List.append_assoc, List.cons_append, List.nil_append]
    · have htext : Text.replaceChars quote [quote, quote] (c :: cs) =
          c :: Text.replaceChars quote [quote, quote] cs := by
        simp [Text.replaceChars, hc]
      rw [htext, List.cons_append, read_quoted (by rw [step, if_neg hc]), ih]
      simp only [List.append_assoc, List.cons_append, List.nil_append]

/-- Within parentheses, spaces are like other characters. -/
theorem resume_nested {cs : List Char} (h : cs.all isPlain = true) :
    resume groups text (nested + 1) (cs ++ rest) =
      resume groups (text ++ cs) (nested + 1) rest := by
  induction cs generalizing text with
  | nil => rw [List.append_nil, List.nil_append]
  | cons c cs ih =>
    rw [List.all_cons, Bool.and_eq_true] at h
    have hspace : nested + 1 = 0 → c = ' ' → (cs ++ rest).head? ≠ some 'A' :=
      fun h => absurd h (Nat.succ_ne_zero nested)
    rw [List.cons_append, resume_plain h.1 hspace, ih h.2, List.append_assoc]
    rfl

end Standing

open Standing (read resume isPlain)

/-! ## Texts -/

/-- A conjunct goes on through the text, if what follows cannot be an `AND` after its last
character. -/
def Passes (s : String) : Prop :=
  ∀ groups text nested rest, rest.head? ≠ some 'A' →
    resume groups text nested (s.toList ++ rest) = resume groups (text ++ s.toList) nested rest

/-- No quotes, no parentheses, and no word after a space that begins like `AND`. -/
def isCalm : List Char → Bool
  | [] => true
  | c :: rest => isPlain c && (c != ' ' || rest.head? != some 'A') && isCalm rest

theorem passes_of_isCalm {s : String} (h : isCalm s.toList = true) : Passes s := by
  intro groups text nested rest hrest
  revert h
  generalize s.toList = cs
  intro h
  induction cs generalizing text with
  | nil => rw [List.append_nil, List.nil_append]
  | cons c cs ih =>
    simp only [isCalm, Bool.and_eq_true, Bool.or_eq_true, bne_iff_ne, ne_eq] at h
    obtain ⟨⟨hplain, hspace⟩, hcs⟩ := h
    have hfollows : c = ' ' → (cs ++ rest).head? ≠ some 'A' := by
      intro hc
      cases cs with
      | nil => exact hrest
      | cons c' cs => exact hspace.resolve_left (not_not_intro hc)
    rw [List.cons_append, Standing.resume_plain hplain fun _ => hfollows, ih _ hcs,
      List.append_assoc]
    rfl

theorem Passes.append {s t : String} (hs : Passes s) (ht : Passes t)
    (hbegins : t.toList.head? ≠ some 'A') : Passes (s ++ t) := by
  intro groups text nested rest hrest
  have hfollows : (t.toList ++ rest).head? ≠ some 'A' := by
    cases h : t.toList with
    | nil => exact hrest
    | cons c cs =>
      rw [h] at hbegins
      exact hbegins
  rw [String.toList_append, List.append_assoc, hs _ _ _ _ hfollows, ht _ _ _ _ hrest,
    List.append_assoc]

theorem isPlain_of_isWordChar {c : Char} (h : Lexeme.isWordChar c = true) :
    isPlain c = true ∧ c ≠ ' ' := by
  have hne : ∀ d : Char, Lexeme.isWordChar d = false → c ≠ d := by
    rintro d hd rfl
    rw [h] at hd
    cases hd
  simp [isPlain, hne '"' rfl, hne '\'' rfl, hne '(' rfl, hne ')' rfl, hne ' ' rfl]

theorem isCalm_of_wordChars (cs : List Char) (h : cs.all Lexeme.isWordChar = true) :
    isCalm cs = true := by
  induction cs with
  | nil => rfl
  | cons c cs ih =>
    rw [List.all_cons, Bool.and_eq_true] at h
    obtain ⟨hplain, hspace⟩ := isPlain_of_isWordChar h.1
    simp [isCalm, hplain, hspace, ih h.2]

theorem passes_quoted {quote : Char} (hquote : quote = '"' ∨ quote = '\'') {s : String}
    (cs : List Char)
    (hs : s.toList = quote :: (Text.replaceChars quote [quote, quote] cs ++ [quote])) :
    Passes s := by
  intro groups text nested rest _
  rw [hs, List.cons_append, List.append_assoc, List.singleton_append, Standing.resume_quote hquote,
    Standing.read_replaceChars hquote, List.append_assoc]
  rfl

theorem passes_quoteIdentifier (s : String) : Passes (quoteIdentifier s) :=
  passes_quoted (.inl rfl) s.toList (by simp [quoteIdentifier])

theorem passes_quoteLiteral (s : String) : Passes (quoteLiteral s) :=
  passes_quoted (.inr rfl) s.toList (by simp [quoteLiteral])

theorem toList_placeholder (b : Backend) (n : Nat) :
    (b.placeholder n).toList = ['?'] ∨ (b.placeholder n).toList = '$' :: (toString n).toList := by
  cases b with
  | sqlite =>
    left
    rw [Backend.placeholder]
    rfl
  | postgres =>
    right
    rw [Backend.placeholder, String.toList_append]
    rfl

theorem passes_placeholder (b : Backend) (n : Nat) : Passes (b.placeholder n) := by
  refine passes_of_isCalm ?_
  rcases toList_placeholder b n with h | h
  · rw [h]
    rfl
  · rw [h]
    exact isCalm_of_wordChars ('$' :: (toString n).toList) (isWordChar_toString n)

theorem head_placeholder (b : Backend) (n : Nat) : (b.placeholder n).toList.head? ≠ some 'A' := by
  rcases toList_placeholder b n with h | h
  · rw [h]
    simp
  · rw [h]
    simp

theorem ColumnRef.toList_sql (r : ColumnRef) :
    r.sql.toList =
      't' :: ((toString r.table).toList ++ '.' :: (quoteIdentifier r.column).toList) := by
  simp [ColumnRef.sql, aliasText]

theorem ColumnRef.passes (r : ColumnRef) : Passes r.sql := by
  have halias : Passes (aliasText r.table) := by
    refine passes_of_isCalm ?_
    have htext : (aliasText r.table).toList = 't' :: (toString r.table).toList := by
      simp [aliasText]
    rw [htext]
    exact isCalm_of_wordChars ('t' :: (toString r.table).toList) (isWordChar_toString r.table)
  exact (halias.append (passes_of_isCalm rfl) (by simp)).append (passes_quoteIdentifier r.column)
    (by simp [quoteIdentifier])

/-- In parentheses of its own, a conjunct goes on through the text. -/
def PassesNested (cs : List Char) : Prop :=
  ∀ groups text nested rest,
    resume groups text (nested + 1) (cs ++ rest) = resume groups (text ++ cs) (nested + 1) rest

theorem passes_enclosed {s t : String} {cs : List Char} (hs : Passes s) (hcs : PassesNested cs)
    (ht : t.toList = s.toList ++ '(' :: (cs ++ [')'])) : Passes t := by
  intro groups text nested rest _
  have hopens : ('(' :: (cs ++ ')' :: rest)).head? ≠ some 'A' := by simp
  have hsplit : t.toList ++ rest = s.toList ++ '(' :: (cs ++ ')' :: rest) := by
    rw [ht]
    simp
  rw [hsplit, hs _ _ _ _ hopens, Standing.resume_open, hcs, Standing.resume_close, ht]
  simp

/-- A column, or its text, is no more than a part of a conjunct. -/
theorem passes_cast (b : Backend) (cast : Bool) {s : String} (h : Passes s) :
    Passes (if cast then b.castText s else s) := by
  cases cast with
  | false => exact h
  | true =>
    cases b with
    | sqlite =>
      have hinner : PassesNested (s.toList ++ " AS TEXT".toList) := by
        intro groups text nested rest
        have hfollows : (" AS TEXT".toList ++ rest).head? ≠ some 'A' := by simp
        rw [List.append_assoc, h _ _ _ _ hfollows, Standing.resume_nested (by decide),
          List.append_assoc]
      have hcast : Passes "CAST" := passes_of_isCalm (by decide)
      refine passes_enclosed hcast hinner ?_
      simp [Backend.castText]
    | postgres => exact h.append (passes_of_isCalm (by decide)) (by simp)

/-- The characters of items between commas. -/
theorem isPlain_joined {items : List String} (h : ∀ s ∈ items, s.toList.all isPlain = true) :
    (Text.joined ", " items).toList.all isPlain = true := by
  induction items with
  | nil => rfl
  | cons s rest ih =>
    obtain ⟨hs, hrest⟩ := List.forall_mem_cons.mp h
    cases rest with
    | nil =>
      rw [Text.joined, String.intercalate_singleton]
      exact hs
    | cons next rest =>
      rw [Text.joined, String.intercalate_cons_cons, String.toList_append, String.toList_append,
        List.all_append, List.all_append, hs]
      exact ih hrest

theorem isPlain_placeholder (b : Backend) (n : Nat) :
    (b.placeholder n).toList.all isPlain = true := by
  rcases toList_placeholder b n with h | h
  · rw [h]
    rfl
  · rw [h, List.all_cons, List.all_eq_true.mpr]
    · rfl
    · intro c hc
      exact (isPlain_of_isWordChar (List.all_eq_true.mp (isWordChar_toString n) c hc)).1

def Begins (s : String) : Prop :=
  ∃ c cs, s.toList = c :: cs ∧ isPlain c = true ∧ c ≠ ' '

theorem Begins.append {s : String} (h : Begins s) (t : String) : Begins (s ++ t) := by
  obtain ⟨c, cs, hs, hc⟩ := h
  exact ⟨c, cs ++ t.toList, by rw [String.toList_append, hs]; rfl, hc⟩

theorem ColumnRef.begins (r : ColumnRef) : Begins r.sql :=
  ⟨_, _, r.toList_sql, rfl, by decide⟩

theorem begins_cast (b : Backend) (cast : Bool) {s : String} (h : Begins s) :
    Begins (if cast then b.castText s else s) := by
  cases cast with
  | false => exact h
  | true =>
    cases b with
    | sqlite =>
      have hcast : Begins "CAST(" := ⟨'C', _, rfl, rfl, by decide⟩
      exact (hcast.append s).append " AS TEXT)"
    | postgres => exact h.append "::TEXT"

structure Atom (s : String) : Prop where
  passes : Passes s
  begins : Begins s

/-- A conjunct is read where it may begin, before what ends it. -/
theorem Atom.read_eq {s : String} (h : Atom s) (groups : Nat) {rest : List Char}
    (hrest : stops rest = true) :
    read groups .before (s.toList ++ rest) =
      (read groups .after rest).map (s.toList :: ·) := by
  obtain ⟨c, cs, hs, hplain, hspace⟩ := h.begins
  have hgoes : stops (c :: (cs ++ rest)) = false := by
    refine Standing.not_stops ?_ ?_ (List.cons_ne_nil _ _)
    · intro hclose
      cases hclose
      cases hplain
    · intro rest' hcs
      exact hspace (List.cons.inj hcs).1
  have hopens : c ≠ '(' := by
    rintro rfl
    cases hplain
  have hfirst : read groups .before (s.toList ++ rest) = resume groups [] 0 (s.toList ++ rest) := by
    rw [hs, List.cons_append, Standing.resume_inside fun _ => hgoes]
    have hstep : Standing.before.step groups c (cs ++ rest) = some (groups, .inside [c] 0) := by
      rw [Standing.step, if_neg hopens, hgoes, Standing.enter_plain hplain]
      rfl
    have hinside : (Standing.inside [] 0).step groups c (cs ++ rest) =
        some (groups, .inside [c] 0) := by
      rw [Standing.step, Standing.enter_plain hplain]
      rfl
    rw [Standing.read_inside hstep, Standing.read_inside hinside]
  have hhead : rest.head? ≠ some 'A' := by
    intro hA
    cases rest with
    | nil => cases hA
    | cons d rest =>
      cases hA
      cases hrest
  rw [hfirst, h.passes _ _ _ _ hhead, List.nil_append]
  exact if_pos ⟨rfl, hrest⟩

/-! ## Conditions -/

namespace Condition

/-- What is no conjunction is one conjunct. -/
theorem atom_sql (b : Backend) {c : Condition} (h : ∀ parts, c ≠ .and parts) : Atom (c.sql b) := by
  cases c with
  | always =>
    rw [sql]
    exact ⟨passes_of_isCalm (by decide), _, _, rfl, by decide, by decide⟩
  | never =>
    rw [sql]
    exact ⟨passes_of_isCalm (by decide), _, _, rfl, by decide, by decide⟩
  | compare ref op param =>
    have hop : Passes (" " ++ op.sql ++ " ") ∧ (" " ++ op.sql ++ " ").toList.head? ≠ some 'A' := by
      cases op <;> exact ⟨passes_of_isCalm (by decide), by decide⟩
    have hpasses := (ref.passes.append hop.1 hop.2).append (passes_placeholder b param)
      (head_placeholder b param)
    rw [← String.append_assoc, ← String.append_assoc] at hpasses
    rw [sql]
    exact ⟨hpasses, (((ref.begins.append _).append _).append _).append _⟩
  | like ref cast param escape =>
    have hlike : Passes " LIKE " := passes_of_isCalm (by decide)
    have hescape : Passes " ESCAPE " := passes_of_isCalm (by decide)
    have hsearch := ((passes_cast b cast ref.passes).append hlike (by decide)).append
      (passes_placeholder b param) (head_placeholder b param)
    have hpasses := (hsearch.append hescape (by decide)).append
      (passes_quoteLiteral (String.singleton escape)) (by simp [quoteLiteral])
    rw [sql]
    exact ⟨hpasses, ((((begins_cast b cast ref.begins).append _).append _).append _).append _⟩
  | isNull ref =>
    rw [sql]
    exact ⟨ref.passes.append (passes_of_isCalm (by decide)) (by decide), ref.begins.append _⟩
  | isNotNull ref =>
    rw [sql]
    exact ⟨ref.passes.append (passes_of_isCalm (by decide)) (by decide), ref.begins.append _⟩
  | isIn ref params =>
    have hin : Passes " IN " := passes_of_isCalm (by decide)
    have hitems : PassesNested (Text.joined ", " (params.map b.placeholder)).toList := by
      intro groups text nested rest
      refine Standing.resume_nested (isPlain_joined fun s hs => ?_)
      obtain ⟨n, _, rfl⟩ := List.mem_map.mp hs
      exact isPlain_placeholder b n
    have hpasses : Passes
        (ref.sql ++ " IN (" ++ Text.joined ", " (params.map b.placeholder) ++ ")") :=
      passes_enclosed (ref.passes.append hin (by decide)) hitems (by simp)
    rw [sql]
    exact ⟨hpasses, ((ref.begins.append _).append _).append _⟩
  | and parts => exact absurd rfl (h parts)

mutual

/-- The conditions that a condition is the conjunction of. -/
def flatten : Condition → List Condition
  | .and parts => flattenParts parts
  | c => [c]

def flattenParts : List Condition → List Condition
  | [] => []
  | c :: rest => c.flatten ++ flattenParts rest

end

mutual

def isFull : Condition → Bool
  | .and parts => !parts.isEmpty && areFull parts
  | _ => true

def areFull : List Condition → Bool
  | [] => true
  | c :: rest => c.isFull && areFull rest

end

def texts (b : Backend) (cs : List Condition) : List (List Char) :=
  cs.map fun c => (c.sql b).toList

theorem read_atom (b : Backend) {c : Condition} (h : ∀ parts, c ≠ .and parts) (groups : Nat)
    {rest : List Char} (hrest : stops rest = true) :
    read groups .before ((c.sql b).toList ++ rest) =
      (read groups .after rest).map (texts b [c] ++ ·) :=
  (atom_sql b h).read_eq groups hrest

/-- A part of a conjunction is read as what it is, in parentheses or not. -/
theorem read_part {b : Backend} {c : Condition} {found : List (List Char)}
    (h : ∀ groups rest, stops rest = true → read groups .before ((c.sql b).toList ++ rest) =
      (read groups .after rest).map (found ++ ·))
    (groups : Nat) {rest : List Char} (hrest : stops rest = true) :
    read groups .before ((partSql b c).toList ++ rest) =
      (read groups .after rest).map (found ++ ·) := by
  unfold partSql
  by_cases hgroup : c.isGroup = true
  · have htext : ("(" ++ c.sql b ++ ")").toList ++ rest =
        '(' :: ((c.sql b).toList ++ ')' :: rest) := by
      simp
    have hopen : read groups .before ('(' :: ((c.sql b).toList ++ ')' :: rest)) =
        read (groups + 1) .before ((c.sql b).toList ++ ')' :: rest) := rfl
    have hclose : read (groups + 1) .after (')' :: rest) = read groups .after rest := rfl
    rw [if_pos hgroup, htext, hopen, h _ _ rfl, hclose]
  · rw [if_neg hgroup]
    exact h groups rest hrest

mutual

theorem read_sql (b : Backend) (c : Condition) (hfull : c.isFull = true) (groups : Nat)
    {rest : List Char} (hrest : stops rest = true) :
    read groups .before ((c.sql b).toList ++ rest) =
      (read groups .after rest).map (texts b c.flatten ++ ·) := by
  cases c with
  | and parts =>
    rw [isFull, Bool.and_eq_true, Bool.not_eq_true', List.isEmpty_eq_false_iff] at hfull
    rw [sql, flatten]
    exact read_parts b parts hfull.1 hfull.2 groups hrest
  | always => exact read_atom b (by simp) groups hrest
  | never => exact read_atom b (by simp) groups hrest
  | compare ref op param => exact read_atom b (by simp) groups hrest
  | like ref cast param escape => exact read_atom b (by simp) groups hrest
  | isNull ref => exact read_atom b (by simp) groups hrest
  | isNotNull ref => exact read_atom b (by simp) groups hrest
  | isIn ref params => exact read_atom b (by simp) groups hrest

theorem read_parts (b : Backend) (cs : List Condition) (hne : cs ≠ []) (hfull : areFull cs = true)
    (groups : Nat) {rest : List Char} (hrest : stops rest = true) :
    read groups .before ((partsSql b cs).toList ++ rest) =
      (read groups .after rest).map (texts b (flattenParts cs) ++ ·) := by
  match cs with
  | [] => exact absurd rfl hne
  | [c] =>
    rw [areFull, Bool.and_eq_true] at hfull
    rw [partsSql, flattenParts, flattenParts, List.append_nil]
    exact read_part (fun _ _ h => read_sql b c hfull.1 _ h) groups hrest
  | c :: next :: others =>
    rw [areFull, Bool.and_eq_true] at hfull
    have htext : (partSql b c ++ " AND " ++ partsSql b (next :: others)).toList ++ rest =
        (partSql b c).toList ++
          ' ' :: 'A' :: 'N' :: 'D' :: ' ' :: ((partsSql b (next :: others)).toList ++ rest) := by
      simp
    have hand : ∀ cs, read groups .after (' ' :: 'A' :: 'N' :: 'D' :: ' ' :: cs) =
        read groups .before cs := fun _ => rfl
    have htexts : texts b (flattenParts (c :: next :: others)) =
        texts b c.flatten ++ texts b (flattenParts (next :: others)) := by
      rw [flattenParts, texts, List.map_append]
      rfl
    rw [partsSql, htext, read_part (fun _ _ h => read_sql b c hfull.1 _ h) groups rfl, hand,
      read_parts b (next :: others) (List.cons_ne_nil _ _) hfull.2 groups hrest, htexts,
      Option.map_map]
    · congr 1
      funext found
      exact (List.append_assoc _ _ _).symm
    · intro e
      cases e

end

/-- The conjuncts of a condition's text are the texts of the conditions that it is the
conjunction of. -/
theorem conjuncts_sql (b : Backend) {c : Condition} (hfull : c.isFull = true) :
    conjuncts (c.sql b) = some (c.flatten.map (sql b)) := by
  have hend : stops [] = true := rfl
  have hread := read_sql b c hfull 0 hend
  rw [List.append_nil] at hread
  rw [conjuncts, hread]
  show some (List.map String.ofList (texts b c.flatten ++ [])) = _
  simp [texts, Function.comp_def]

example : conjuncts "a = 1 AND (1=1 AND (\"b) AND \" IN (1, 2)))" =
    some ["a = 1", "1=1", "\"b) AND \" IN (1, 2)"] := by decide +kernel

example : conjuncts "(a = 1 AND b = 2" = none := by decide +kernel

end Condition

end Sql
end TableSearch
