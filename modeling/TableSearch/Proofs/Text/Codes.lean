/-
What pattern search reads from the bytes of a text.

Pattern search reads bytes without checking them.  From the bytes of a text it reads one
number for each character, which is that of the character but for the two numbers that it
takes for none: `codes_encode`.
-/
import Mathlib.Data.List.TakeWhile
import TableSearch.Text.Utf8

namespace TableSearch
namespace Utf8

def code (c : Char) : Nat :=
  if c.toNat < 0x80 then c.toNat else settled c.toNat

def StartsAnew : List UInt8 → Prop
  | [] => True
  | b :: _ => isContinuation b = false

/-! ## Bytes -/

def shifted (n : Nat) (b : UInt8) : Nat :=
  (n * 64 + b.toNat % 64) % 2 ^ 32

theorem codesFrom_continuations {tail : List UInt8} (h : ∀ b ∈ tail, isContinuation b = true)
    (n : Nat) (bytes : List UInt8) :
    codesFrom (some n) (tail ++ bytes) = codesFrom (some (tail.foldl shifted n)) bytes := by
  induction tail generalizing n with
  | nil => rfl
  | cons b rest ih =>
    obtain ⟨hb, hrest⟩ := List.forall_mem_cons.mp h
    rw [List.cons_append, codesFrom]
    rw [if_pos hb]
    exact ih hrest (shifted n b)

theorem codesFrom_end {bytes : List UInt8} (h : StartsAnew bytes) (n : Nat) :
    codesFrom (some n) bytes = settled n :: codesFrom none bytes := by
  cases bytes with
  | nil => rfl
  | cons b rest =>
    rw [codesFrom, codesFrom]
    rw [if_neg (Bool.eq_false_iff.mp h)]
    split
    · rfl
    · rfl

/-! ## Characters -/

theorem toNat_lt (c : Char) : c.toNat < 0x110000 := by
  rcases c.valid with h | h
  · have : c.toNat < 0xd800 := h
    omega
  · exact h.2

theorem toNat_ofNat {n : Nat} (h : n < 256) : (UInt8.ofNat n).toNat = n := by
  rw [UInt8.toNat_ofNat', Nat.mod_eq_of_lt h]

theorem encodeChar_eq (c : Char) : String.utf8EncodeChar c =
    if c.toNat ≤ 0x7f then [UInt8.ofNat c.toNat]
    else if c.toNat ≤ 0x7ff then
      [UInt8.ofNat (c.toNat / 64 % 32 + 192), UInt8.ofNat (c.toNat % 64 + 128)]
    else if c.toNat ≤ 0xffff then
      [UInt8.ofNat (c.toNat / 4096 % 16 + 224), UInt8.ofNat (c.toNat / 64 % 64 + 128),
        UInt8.ofNat (c.toNat % 64 + 128)]
    else
      [UInt8.ofNat (c.toNat / 262144 % 8 + 240), UInt8.ofNat (c.toNat / 4096 % 64 + 128),
        UInt8.ofNat (c.toNat / 64 % 64 + 128), UInt8.ofNat (c.toNat % 64 + 128)] :=
  rfl

theorem encodeChar_ascii {c : Char} (h : c.toNat < 0x80) :
    String.utf8EncodeChar c = [UInt8.ofNat c.toNat] := by
  rw [encodeChar_eq, if_pos (by omega)]

/-- The bytes of a character beyond ASCII: a first one and continuations that make its number
together. -/
structure Encodes (c : Char) (lead : UInt8) (tail : List UInt8) : Prop where
  bytes : String.utf8EncodeChar c = lead :: tail
  first : 0xC0 ≤ lead.toNat
  continuations : ∀ b ∈ tail, isContinuation b = true
  number : tail.foldl shifted (leadBits lead) = c.toNat

theorem isContinuation_low (n : Nat) : isContinuation (UInt8.ofNat (n % 64 + 128)) = true := by
  rw [isContinuation, toNat_ofNat (by omega)]
  exact beq_iff_eq.mpr (by omega)

theorem shifted_low {n : Nat} (hn : n < 2 ^ 20) (k : Nat) :
    shifted n (UInt8.ofNat (k % 64 + 128)) = n * 64 + k % 64 := by
  rw [shifted, toNat_ofNat (by omega)]
  omega

theorem exists_encodes {c : Char} (h : 0x80 ≤ c.toNat) : ∃ lead tail, Encodes c lead tail := by
  -- By the width of the character: two, three or four bytes.
  have hlt := toNat_lt c
  have hone : ¬ c.toNat ≤ 0x7f := by omega
  by_cases htwo : c.toNat ≤ 0x7ff
  · have hlead := toNat_ofNat (n := c.toNat / 64 % 32 + 192) (by omega)
    have hbytes : String.utf8EncodeChar c = [UInt8.ofNat (c.toNat / 64 % 32 + 192),
        UInt8.ofNat (c.toNat % 64 + 128)] := by
      rw [encodeChar_eq, if_neg hone, if_pos htwo]
    refine ⟨_, _, hbytes, ?_, ?_, ?_⟩
    · omega
    · exact List.forall_mem_singleton.mpr (isContinuation_low _)
    · have hbits : leadBits (UInt8.ofNat (c.toNat / 64 % 32 + 192)) = c.toNat / 64 := by
        rw [leadBits, hlead, if_pos (by omega)]
        omega
      rw [List.foldl_cons, List.foldl_nil, hbits, shifted_low (by omega)]
      omega
  · by_cases hthree : c.toNat ≤ 0xffff
    · have hlead := toNat_ofNat (n := c.toNat / 4096 % 16 + 224) (by omega)
      have hbytes : String.utf8EncodeChar c = [UInt8.ofNat (c.toNat / 4096 % 16 + 224),
            UInt8.ofNat (c.toNat / 64 % 64 + 128), UInt8.ofNat (c.toNat % 64 + 128)] := by
        rw [encodeChar_eq, if_neg hone, if_neg htwo, if_pos hthree]
      refine ⟨_, _, hbytes, ?_, ?_, ?_⟩
      · omega
      · exact List.forall_mem_cons.mpr ⟨isContinuation_low _,
          List.forall_mem_singleton.mpr (isContinuation_low _)⟩
      · have hbits : leadBits (UInt8.ofNat (c.toNat / 4096 % 16 + 224)) = c.toNat / 4096 := by
          rw [leadBits, hlead, if_neg (by omega), if_pos (by omega)]
          omega
        rw [List.foldl_cons, List.foldl_cons, List.foldl_nil, hbits,
          shifted_low (n := c.toNat / 4096) (by omega), shifted_low (by omega)]
        omega
    · have hlead := toNat_ofNat (n := c.toNat / 262144 % 8 + 240) (by omega)
      have hbytes : String.utf8EncodeChar c = [UInt8.ofNat (c.toNat / 262144 % 8 + 240),
            UInt8.ofNat (c.toNat / 4096 % 64 + 128), UInt8.ofNat (c.toNat / 64 % 64 + 128),
            UInt8.ofNat (c.toNat % 64 + 128)] := by
        rw [encodeChar_eq, if_neg hone, if_neg htwo, if_neg hthree]
      refine ⟨_, _, hbytes, ?_, ?_, ?_⟩
      · omega
      · exact List.forall_mem_cons.mpr ⟨isContinuation_low _, List.forall_mem_cons.mpr
          ⟨isContinuation_low _, List.forall_mem_singleton.mpr (isContinuation_low _)⟩⟩
      · have hbits : leadBits (UInt8.ofNat (c.toNat / 262144 % 8 + 240)) = c.toNat / 262144 := by
          rw [leadBits, hlead, if_neg (by omega), if_neg (by omega), if_pos (by omega)]
          omega
        rw [List.foldl_cons, List.foldl_cons, List.foldl_cons, List.foldl_nil, hbits,
          shifted_low (n := c.toNat / 262144) (by omega),
          shifted_low (n := c.toNat / 262144 * 64 + c.toNat / 4096 % 64) (by omega),
          shifted_low (by omega)]
        omega

/-! ## Texts -/

theorem startsAnew_encode (cs : List Char) : StartsAnew (encode cs) := by
  cases cs with
  | nil => trivial
  | cons c rest =>
    show StartsAnew (String.utf8EncodeChar c ++ encode rest)
    by_cases hc : c.toNat < 0x80
    · rw [encodeChar_ascii hc]
      show isContinuation (UInt8.ofNat c.toNat) = false
      rw [isContinuation, toNat_ofNat (by omega)]
      exact beq_false_of_ne (by omega)
    · obtain ⟨lead, tail, h⟩ := exists_encodes (Nat.le_of_not_lt hc)
      rw [h.bytes]
      have hfirst := h.first
      exact beq_false_of_ne (by omega)

/-- Pattern search reads one number for each character of a text. -/
theorem codes_encode (cs : List Char) : codes (encode cs) = cs.map code := by
  induction cs with
  | nil => rfl
  | cons c rest ih =>
    show codesFrom none (String.utf8EncodeChar c ++ encode rest) = code c :: rest.map code
    rw [← ih, codes, code]
    by_cases hc : c.toNat < 0x80
    · have hbyte := toNat_ofNat (n := c.toNat) (by omega)
      rw [encodeChar_ascii hc, if_pos hc, List.singleton_append, codesFrom]
      rw [if_pos (by omega), hbyte]
    · obtain ⟨lead, tail, h⟩ := exists_encodes (Nat.le_of_not_lt hc)
      have hfirst := h.first
      rw [h.bytes, if_neg hc, List.cons_append, codesFrom]
      rw [if_neg (by omega), codesFrom_continuations h.continuations, h.number,
        codesFrom_end (startsAnew_encode rest)]

/-- A text without the character zero has no byte that is zero. -/
theorem takeWhile_encode {cs : List Char} (h : Char.ofNat 0 ∉ cs) :
    (encode cs).takeWhile (· != 0) = encode cs := by
  refine List.takeWhile_eq_self_iff.mpr fun b hb => ?_
  obtain ⟨c, hc, hb⟩ := List.mem_flatMap.mp hb
  have hpositive : b.toNat ≠ 0 := by
    by_cases hascii : c.toNat < 0x80
    · rw [encodeChar_ascii hascii, List.mem_singleton] at hb
      rw [hb, toNat_ofNat (by omega)]
      intro hzero
      have he : c = Char.ofNat 0 := by rw [← hzero, Char.ofNat_toNat]
      exact h (he ▸ hc)
    · obtain ⟨lead, tail, hencodes⟩ := exists_encodes (Nat.le_of_not_lt hascii)
      have hfirst := hencodes.first
      rw [hencodes.bytes] at hb
      rcases List.mem_cons.mp hb with rfl | hb
      · omega
      · have hlater : b.toNat / 64 = 2 := beq_iff_eq.mp (hencodes.continuations b hb)
        omega
  rw [bne_iff_ne]
  intro hzero
  rw [hzero] at hpositive
  exact hpositive rfl

end Utf8
end TableSearch
