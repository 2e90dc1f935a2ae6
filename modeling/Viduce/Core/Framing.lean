/-
Self-delimiting encodings: from the front of a string one can tell whether a whole item is there, and where it ends. Nothing
here names a program.

- `Framing.frames`: the items read off a string, one after another.
- `frames_longest`, `longest_unique`: they are the one longest list of items whose encoding is a prefix of the string.
- `frames_take`: of a truncated encoding, the items wholly before the cut.
- `leBytes`, `leValue`: numbers as little-endian bytes, and back.
-/
import Mathlib.Tactic

namespace Viduce

variable {α β : Type}

/-- an encoding of items of α by lists of β, none of them empty, and the parser of one item -/
structure Framing (α β : Type) where
  encode : α → List β
  parse : List β → Option (α × List β)
  parse_encode : ∀ a rest, parse (encode a ++ rest) = some (a, rest)
  encode_parse : ∀ {s a rest}, parse s = some (a, rest) → s = encode a ++ rest
  encode_ne_nil : ∀ a, encode a ≠ []

namespace Framing

variable (F : Framing α β)

/-- the concatenated encodings -/
def encodeAll (as : List α) : List β := (as.map F.encode).flatten

@[simp] theorem encodeAll_nil : F.encodeAll [] = [] := rfl

@[simp] theorem encodeAll_cons (a : α) (as : List α) : F.encodeAll (a :: as) = F.encode a ++ F.encodeAll as := rfl

theorem parse_shorter {s rest : List β} {a : α} (h : F.parse s = some (a, rest)) : rest.length < s.length := by
  have hpos := List.length_pos_iff.2 (F.encode_ne_nil a)
  rw [F.encode_parse h, List.length_append]
  omega

/-- the items at the front of a string, as far as they are whole -/
def frames (s : List β) : List α :=
  match _h : F.parse s with
  | none => []
  | some (a, rest) => a :: frames rest
termination_by s.length
decreasing_by exact F.parse_shorter _h

theorem frames_none {s : List β} (h : F.parse s = none) : F.frames s = [] := by
  rw [frames]
  split
  · rfl
  · rename_i a rest h'
    rw [h] at h'
    cases h'

theorem frames_some {s rest : List β} {a : α} (h : F.parse s = some (a, rest)) : F.frames s = a :: F.frames rest := by
  rw [frames]
  split
  · rename_i h'
    rw [h] at h'
    cases h'
  · rename_i a' rest' h'
    rw [h] at h'
    cases h'
    rfl

/-- a prefix of the string that is an encoding encodes a prefix of its items, and the other way round -/
theorem encodeAll_prefix_iff (as : List α) (s : List β) : F.encodeAll as <+: s ↔ as <+: F.frames s := by
  induction as generalizing s with
  | nil => simp
  | cons a as ih =>
    rw [encodeAll_cons]
    refine ⟨?_, ?_⟩
    · intro h
      rcases h with ⟨t, rfl⟩
      rw [List.append_assoc, F.frames_some (F.parse_encode a _), List.cons_prefix_cons]
      exact ⟨rfl, (ih _).1 ⟨t, rfl⟩⟩
    · intro h
      cases hp : F.parse s with
      | none =>
        rw [F.frames_none hp] at h
        exact absurd (List.prefix_nil.1 h) (List.cons_ne_nil _ _)
      | some found =>
        obtain ⟨a', rest⟩ := found
        rw [F.frames_some hp, List.cons_prefix_cons] at h
        obtain ⟨rfl, hrest⟩ := h
        rw [F.encode_parse hp]
        exact List.prefix_append_right_inj _ |>.2 ((ih rest).2 hrest)

/-- a longest list of items whose encoding is a prefix of the string -/
def Longest (as : List α) (s : List β) : Prop :=
  F.encodeAll as <+: s ∧ ∀ bs, F.encodeAll bs <+: s → bs.length ≤ as.length

/-- **The longest list of items** is what the parser reads. -/
theorem frames_longest (s : List β) : F.Longest (F.frames s) s :=
  ⟨(F.encodeAll_prefix_iff _ s).2 (List.prefix_refl _),
    fun bs h => ((F.encodeAll_prefix_iff bs s).1 h).length_le⟩

theorem longest_unique {as : List α} {s : List β} (h : F.Longest as s) : as = F.frames s := by
  have hpre := (F.encodeAll_prefix_iff as s).1 h.1
  exact hpre.eq_of_length (le_antisymm hpre.length_le (h.2 _ (F.frames_longest s).1))

/-- the items whose encodings lie wholly before position n -/
def wholeBefore : List α → ℕ → List α
  | [], _ => []
  | a :: as, n => if (F.encode a).length ≤ n then a :: wholeBefore as (n - (F.encode a).length) else []

/-- nothing can be read off a part of one encoding -/
theorem parse_take {a : α} {n : ℕ} (h : n < (F.encode a).length) (t : List β) :
    F.parse ((F.encode a ++ t).take n) = none := by
  rw [List.take_append_of_le_length h.le]
  cases hp : F.parse ((F.encode a).take n) with
  | none => rfl
  | some found =>
    obtain ⟨b, rest⟩ := found
    have hwhole : F.encode a = F.encode b ++ (rest ++ (F.encode a).drop n) := by
      rw [← List.append_assoc, ← F.encode_parse hp, List.take_append_drop]
    have hab := F.parse_encode b (rest ++ (F.encode a).drop n)
    have haa := F.parse_encode a []
    rw [List.append_nil, hwhole, hab] at haa
    obtain ⟨-, hdrop⟩ := List.append_eq_nil_iff.1 (Prod.mk.inj (Option.some.inj haa)).2
    rw [List.drop_eq_nil_iff] at hdrop
    omega

/-- **Truncation.** The items read off a cut encoding are those wholly before the cut. -/
theorem frames_take (as : List α) (n : ℕ) : F.frames ((F.encodeAll as).take n) = F.wholeBefore as n := by
  induction as generalizing n with
  | nil =>
    rw [encodeAll_nil, List.take_nil, wholeBefore]
    apply F.frames_none
    cases hp : F.parse [] with
    | none => rfl
    | some found => exact absurd (F.parse_shorter hp) (Nat.not_lt_zero _)
  | cons a as ih =>
    rw [encodeAll_cons, wholeBefore]
    split_ifs with h
    · rw [List.take_append, List.take_of_length_le h, F.frames_some (F.parse_encode a _), ih]
    · exact F.frames_none (F.parse_take (Nat.not_le.1 h) _)

end Framing

/-! ## Little-endian numbers -/

/-- the k low bytes of a number, the lowest first -/
def leBytes : ℕ → ℕ → List UInt8
  | 0, _ => []
  | k + 1, n => UInt8.ofNat n :: leBytes k (n / 256)

/-- the number these bytes spell -/
def leValue : List UInt8 → ℕ
  | [] => 0
  | b :: bytes => b.toNat + 256 * leValue bytes

@[simp] theorem leBytes_length (k n : ℕ) : (leBytes k n).length = k := by
  induction k generalizing n with
  | zero => rfl
  | succ k ih => rw [leBytes, List.length_cons, ih]

theorem leValue_lt (bytes : List UInt8) : leValue bytes < 256 ^ bytes.length := by
  induction bytes with
  | nil => exact Nat.one_pos
  | cons b bytes ih =>
    have hb := b.toNat_lt
    rw [leValue, List.length_cons, Nat.pow_succ]
    omega

theorem leValue_leBytes {k n : ℕ} (h : n < 256 ^ k) : leValue (leBytes k n) = n := by
  induction k generalizing n with
  | zero => rw [pow_zero, Nat.lt_one_iff] at h; rw [h]; rfl
  | succ k ih =>
    have hhigh : n / 256 < 256 ^ k := by rw [pow_succ] at h; omega
    rw [leBytes, leValue, ih hhigh, UInt8.toNat_ofNat']
    omega

theorem leBytes_leValue {bytes : List UInt8} {k : ℕ} (h : bytes.length = k) : leBytes k (leValue bytes) = bytes := by
  induction bytes generalizing k with
  | nil => subst h; rfl
  | cons b bytes ih =>
    have hb := b.toNat_lt
    subst h
    have hlow : (b.toNat + 256 * leValue bytes) / 256 = leValue bytes := by omega
    rw [List.length_cons, leBytes, leValue, hlow, ih rfl]
    congr 1
    apply UInt8.toNat_inj.1
    rw [UInt8.toNat_ofNat']
    omega

end Viduce
