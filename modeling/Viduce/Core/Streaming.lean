/-
Networks that take a sequence chunk by chunk. A stage keeps what it needs of the past in slots of its own, side by side
with the slots of the other stages; an index that starts over with every chunk says which slot comes next. Nothing here
names a program.

- `slide_append`: windows over a longer list are those over the list, and those over its tail and what is added.
- `StreamsBy`, `Streams`: chunk by chunk, a stage gives what a function of the whole sequence gives.
- `Streams.map`, `Streams.comp`, `Streams.add`, `Streams.chain_append`: stages put together.
- `Streams.feed`, `Streams.grows`: from fresh slots, a loop over chunks gives what the function gives on all of them, and
  later chunks only add to it.
- `Serves`, `Serves.comp`, `Serves.chainJoin_cons`: stages that also take a list of side inputs, and do what they do without
  them if these are neutral.
- `feedAt`, `Serves.feedAt`, `feedAt_le`: loops whose rounds differ, with side inputs, and fewer rounds of them.
-/
import Mathlib.Tactic
import Mathlib.Data.List.DropRight
import Viduce.Core.Py

namespace Viduce.Streaming

variable {E F G H κ : Type}

/-! ## Sliding windows -/

/-- how many windows of w items, s apart, n items have -/
def windowCount (w s n : ℕ) : ℕ := (n + s - w) / s

/-- what K gives on each of the windows of w items, s apart -/
def slide (w s : ℕ) (K : List F → G) (l : List F) : List G :=
  (List.range (windowCount w s l.length)).map fun i => K ((l.drop (s * i)).take w)

@[simp] theorem length_slide (w s : ℕ) (K : List F → G) (l : List F) :
    (slide w s K l).length = windowCount w s l.length := by
  rw [slide, List.length_map, List.length_range]

theorem windowCount_one (w n : ℕ) : windowCount w 1 n = n + 1 - w := Nat.div_one _

/-- a list shorter than a window has none -/
theorem windowCount_of_lt {w s n : ℕ} (hs : 0 < s) (h : n < w) : windowCount w s n = 0 := by
  unfold windowCount
  exact Nat.div_eq_of_lt (by omega)

theorem slide_of_lt {w s : ℕ} (hs : 0 < s) (K : List F → G) {l : List F} (h : l.length < w) : slide w s K l = [] := by
  rw [slide, windowCount_of_lt hs h]
  rfl

/-- the windows of n items start within them -/
theorem mul_windowCount_le {w s n : ℕ} (hs : s ≤ w) : s * windowCount w s n ≤ n := by
  have h := Nat.mul_div_le (n + s - w) s
  unfold windowCount
  omega

theorem windowCount_add {w s : ℕ} (hpos : 0 < s) (hs : s ≤ w) (n c : ℕ) :
    windowCount w s (n + c) = windowCount w s n + windowCount w s (n - s * windowCount w s n + c) := by
  have hle := mul_windowCount_le (n := n) hs
  by_cases h : n < w
  · simp [windowCount_of_lt hpos h]
  · have hle' := Nat.mul_div_le (n + s - w) s
    unfold windowCount at hle ⊢
    have hsplit : n - s * ((n + s - w) / s) + c + s - w = n + c + s - w - s * ((n + s - w) / s) := by omega
    rw [hsplit, Nat.sub_mul_div, Nat.add_sub_cancel']
    exact Nat.div_le_div_right (by omega)

/-- **Windows of a longer list.** Those of the list, then those of its tail, from where the next window would start, and
what is added. -/
theorem slide_append {w s : ℕ} (hpos : 0 < s) (hs : s ≤ w) (K : List F → G) (l c : List F) :
    slide w s K (l ++ c) = slide w s K l ++ slide w s K (l.drop (s * windowCount w s l.length) ++ c) := by
  have hle := mul_windowCount_le (n := l.length) hs
  unfold slide
  rw [List.length_append, List.length_append, List.length_drop, windowCount_add hpos hs, List.range_add, List.map_append,
    List.map_map]
  congr 1
  · -- the windows of the list end before what is added
    refine List.map_congr_left fun i hi => ?_
    have hi' : i < (l.length + s - w) / s := List.mem_range.1 hi
    have hin : s * (i + 1) ≤ l.length + s - w :=
      (Nat.mul_le_mul_left s hi').trans (Nat.mul_div_le _ _)
    rw [Nat.mul_succ] at hin
    rw [List.drop_append_of_le_length (by omega), List.take_append_of_le_length (by rw [List.length_drop]; omega)]
  · refine List.map_congr_left fun i _ => ?_
    rw [Function.comp_apply, ← List.drop_append_of_le_length hle, List.drop_drop, Nat.mul_add]

/-- an output comes from a whole window -/
theorem mem_slide {w s : ℕ} {K : List F → G} {l : List F} {y : G} (hpos : 0 < s) (h : y ∈ slide w s K l) :
    ∃ v : List F, v.length = w ∧ (∀ x ∈ v, x ∈ l) ∧ y = K v := by
  obtain ⟨i, hi, rfl⟩ := List.mem_map.1 h
  have hi' : i < (l.length + s - w) / s := List.mem_range.1 hi
  have hin : s * (i + 1) ≤ l.length + s - w := (Nat.mul_le_mul_left s hi').trans (Nat.mul_div_le _ _)
  rw [Nat.mul_succ] at hin
  have hfull : 0 < s * i + s := by omega
  refine ⟨(l.drop (s * i)).take w, ?_, fun x hx => List.mem_of_mem_drop (List.mem_of_mem_take hx), rfl⟩
  rw [List.length_take, List.length_drop]
  omega

/-- windows of one item, at each of them -/
theorem slide_one (K : List F → G) (l : List F) : slide 1 1 K l = l.map fun x => K [x] := by
  unfold slide
  rw [windowCount_one, Nat.add_sub_cancel]
  refine List.ext_getElem (by simp) fun i h₁ h₂ => ?_
  have hi : i < l.length := by simpa using h₂
  rw [List.getElem_map, List.getElem_map, List.getElem_range, one_mul, List.drop_eq_getElem_cons hi]
  rfl

/-! ## The last items of a list -/

theorem length_rtake (l : List F) (n : ℕ) : (l.rtake n).length = min n l.length := by
  rw [List.rtake, List.length_drop]
  omega

theorem mem_of_mem_rtake {l : List F} {n : ℕ} {x : F} (h : x ∈ l.rtake n) : x ∈ l := List.mem_of_mem_drop h

/-- the last items of a list that ends in enough of them -/
theorem rtake_append (l l' : List F) (n : ℕ) : (l ++ l').rtake n = l.rtake (n - l'.length) ++ l'.rtake n := by
  rw [List.rtake, List.rtake, List.rtake, List.length_append, List.drop_append]
  congr 1
  · by_cases h : l'.length ≤ n
    · congr 1
      omega
    · rw [List.drop_eq_nil_of_le (by omega), List.drop_eq_nil_of_le (by omega)]
  · congr 1
    omega

/-- n frames of padding and a past, without the first frames: as much padding as the last n frames leave, and these -/
theorem drop_padding (z : F) (past : List F) (n : ℕ) :
    (List.replicate n z ++ past).drop past.length = List.replicate (n - (past.rtake n).length) z ++ past.rtake n := by
  rw [List.drop_append, List.drop_replicate, List.length_replicate, length_rtake, List.rtake]
  congr 2
  omega

/-- a long list leaves nothing of what stands before it -/
theorem rtake_of_long {past l : List F} {n : ℕ} (h : n ≤ l.length) : (past ++ l).rtake n = l.rtake n := by
  rw [rtake_append, Nat.sub_eq_zero_of_le h, List.rtake_zero, List.nil_append]

theorem getLast?_rtake (l : List F) (n : ℕ) : (l.rtake (n + 1)).getLast? = l.getLast? := by
  rcases List.eq_nil_or_concat l with rfl | ⟨l', last, rfl⟩
  · rw [List.rtake_nil]
  · rw [List.concat_eq_append, List.rtake_concat_succ, List.getLast?_concat, List.getLast?_concat]

/-! ## Slots -/

/-- the slots of all stages, and the next one -/
structure Slots (κ : Type) where
  items : List (Option κ)
  idx : ℕ

namespace Slots

/-- what the next slot holds -/
def read : Py (Slots κ) (Option κ) := fun s =>
  match s.items[s.idx]? with
  | some c => (.ok c, s)
  | none => (.error ⟨.indexError, "list index out of range"⟩, s)

/-- puts an item into the next slot and goes on to the one after it -/
def write (c : κ) : Py (Slots κ) Unit := fun s =>
  if s.idx < s.items.length then (.ok (), ⟨s.items.set s.idx (some c), s.idx + 1⟩)
  else (.error ⟨.indexError, "list assignment index out of range"⟩, s)

theorem run_read (pre post : List (Option κ)) (c : Option κ) :
    (read : Py (Slots κ) (Option κ)).run ⟨pre ++ c :: post, pre.length⟩ = (.ok c, ⟨pre ++ c :: post, pre.length⟩) := by
  simp [Py.run, read]

theorem run_write (pre post : List (Option κ)) (c : Option κ) (d : κ) :
    (write d).run ⟨pre ++ c :: post, pre.length⟩ = (.ok (), ⟨pre ++ some d :: post, pre.length + 1⟩) := by
  simp [Py.run, write]

end Slots

/-- a stage of one slot: what it gives and what it leaves in its slot, from what the slot holds -/
def useSlot (work : Option κ → List F → Except PyErr (List G × κ)) (x : List F) : Py (Slots κ) (List G) := do
  let c ← Slots.read
  let r ← Py.ofExcept (work c x)
  Slots.write r.2
  pure r.1

theorem run_useSlot {work : Option κ → List F → Except PyErr (List G × κ)} {c : Option κ} {x : List F} {r : List G × κ}
    (h : work c x = .ok r) (pre post : List (Option κ)) :
    (useSlot work x).run ⟨pre ++ c :: post, pre.length⟩ = (.ok r.1, ⟨pre ++ some r.2 :: post, pre.length + 1⟩) := by
  unfold useSlot
  rw [Py.run_bind_ok (Slots.run_read pre post c), Py.run_bind_ofExcept, h]
  exact Py.run_bind_ok (Slots.run_write pre post c r.2) _

/-! ## Stages -/

/-- how long a chunk is, if later chunks have m items: the first one is a single item -/
def pace (m : ℕ) (past : List F) : ℕ := if past.isEmpty then 1 else m

@[simp] theorem pace_nil (m : ℕ) : pace m ([] : List F) = 1 := rfl

theorem pace_of_ne {m : ℕ} {past : List F} (h : past ≠ []) : pace m past = m := by
  cases past with
  | nil => exact absurd rfl h
  | cons x past => rfl

theorem pace_congr {m : ℕ} {past : List F} {past' : List G} (h : past = [] ↔ past' = []) : pace m past = pace m past' := by
  by_cases hp : past = []
  · rw [hp, h.1 hp, pace_nil, pace_nil]
  · rw [pace_of_ne hp, pace_of_ne fun h' => hp (h.2 h')]

theorem ne_nil_of_pace {m : ℕ} (hm : 0 < m) {past : List F} {chunk : List G} (h : chunk.length = pace m past) :
    chunk ≠ [] := by
  rintro rfl
  unfold pace at h
  split at h <;> simp at h
  omega

/-- after a chunk at one pace there is no past if and only if there is none after a chunk at another pace -/
theorem append_eq_nil_congr {m m' : ℕ} {past chunk : List F} {past' out : List G} (h : past = [] ↔ past' = [])
    (hchunk : chunk.length = pace m past) (hout : out.length = pace m' past) : past ++ chunk = [] ↔ past' ++ out = [] := by
  by_cases hp : past = []
  · subst hp
    have hc : chunk ≠ [] := fun e => by simp [e] at hchunk
    have ho : out ≠ [] := fun e => by simp [e] at hout
    simp [hc, ho]
  · have hp' : past' ≠ [] := fun e => hp (h.2 e)
    simp [hp, hp']

/-- `Holds` is what the n slots of the stage hold after a past. On items that meet A, in chunks of m items after the first
one, the stage gives what f gives on the whole sequence: items that meet B, in chunks of m'. -/
structure StreamsBy (Holds : List F → List (Option κ) → Prop) (forward : List F → Py (Slots κ) (List G)) (n : ℕ)
    (A : F → Prop) (B : G → Prop) (m m' : ℕ) (f : List F → List G) : Prop where
  nil : f [] = []
  start : Holds [] (List.replicate n none)
  length : ∀ {past own}, Holds past own → own.length = n
  step : ∀ {past own chunk}, Holds past own → (∀ x ∈ past ++ chunk, A x) → chunk.length = pace m past →
    ∀ pre post, ∃ out own', (forward chunk).run ⟨pre ++ own ++ post, pre.length⟩ =
        (.ok out, ⟨pre ++ own' ++ post, pre.length + n⟩) ∧
      Holds (past ++ chunk) own' ∧ f (past ++ chunk) = f past ++ out ∧ (∀ y ∈ out, B y) ∧ out.length = pace m' past

def Streams (forward : List F → Py (Slots κ) (List G)) (n : ℕ) (A : F → Prop) (B : G → Prop) (m m' : ℕ)
    (f : List F → List G) : Prop := ∃ Holds, StreamsBy Holds forward n A B m m' f

variable {A : F → Prop} {B : G → Prop} {C : H → Prop} {m m' m'' n n' : ℕ}

namespace Streams

/-- a stage that treats each item by itself, without a slot -/
theorem map {op : List F → Except PyErr (List G)} {g : F → G} (hop : ∀ x, (∀ a ∈ x, A a) → op x = .ok (x.map g))
    (hg : ∀ a, A a → B (g a)) (m : ℕ) :
    Streams (κ := κ) (fun x => Py.ofExcept (op x)) 0 A B m m (List.map g) := by
  refine ⟨fun _ own => own = [], rfl, rfl, fun h => by rw [h]; rfl, ?_⟩
  rintro past own chunk rfl hA hlen pre post
  have hchunk : ∀ a ∈ chunk, A a := fun a ha => hA a (List.mem_append_right _ ha)
  refine ⟨chunk.map g, [], ?_, rfl, List.map_append, ?_, by rw [List.length_map, hlen]⟩
  · rw [hop chunk hchunk]
    rfl
  · rintro _ hy
    obtain ⟨a, ha, rfl⟩ := List.mem_map.1 hy
    exact hg a (hchunk a ha)

/-- one stage after another, their slots one after the other too -/
theorem comp {forward : List F → Py (Slots κ) (List G)} {forward' : List G → Py (Slots κ) (List H)} {f : List F → List G}
    {g : List G → List H} (hf : Streams forward n A B m m' f) (hg : Streams forward' n' B C m' m'' g) :
    Streams (fun x => forward x >>= forward') (n + n') A C m m'' (g ∘ f) := by
  obtain ⟨Holds, hf⟩ := hf
  obtain ⟨Holds', hg⟩ := hg
  refine ⟨fun past own => ∃ o o', own = o ++ o' ∧ Holds past o ∧ Holds' (f past) o' ∧ (∀ y ∈ f past, B y) ∧
    (past = [] ↔ f past = []), ?_, ?_, ?_, ?_⟩
  · rw [Function.comp_apply, hf.nil, hg.nil]
  · refine ⟨_, _, List.replicate_add n n' none, hf.start, ?_, ?_, ?_⟩
    · rw [hf.nil]
      exact hg.start
    · simp [hf.nil]
    · simp [hf.nil]
  · rintro past own ⟨o, o', rfl, ho, ho', -⟩
    rw [List.length_append, hf.length ho, hg.length ho']
  · rintro past own chunk ⟨o, o', rfl, ho, ho', hB, hnil⟩ hA hlen pre post
    obtain ⟨y, own₁, hrun, hown₁, hfy, hBy, hleny⟩ := hf.step ho hA hlen pre (o' ++ post)
    have hBall : ∀ b ∈ f past ++ y, B b := by
      intro b hb
      rcases List.mem_append.1 hb with h | h
      · exact hB b h
      · exact hBy b h
    have hpace : y.length = pace m' (f past) := hleny.trans (pace_congr hnil)
    obtain ⟨z, own₂, hrun', hown₂, hgz, hCz, hlenz⟩ := hg.step ho' hBall hpace (pre ++ own₁) post
    refine ⟨z, own₁ ++ own₂, ?_, ⟨own₁, own₂, rfl, hown₁, hfy ▸ hown₂, hfy ▸ hBall, ?_⟩, ?_, hCz,
      hlenz.trans (pace_congr hnil).symm⟩
    · rw [List.length_append, hf.length hown₁] at hrun'
      simp only [List.append_assoc] at hrun hrun' ⊢
      rw [Py.run_bind_ok hrun, hrun', Nat.add_assoc]
    · rw [hfy]
      exact append_eq_nil_congr hnil hlen hleny
    · rw [Function.comp_apply, Function.comp_apply, hfy, hgz]

/-- what a stage gives, joined item by item with what each item gives by itself -/
theorem add {body : List F → Py (Slots κ) (List G)} {op : List F → Except PyErr (List G)}
    {join : List G → List G → Except PyErr (List G)} {f : List F → List G} {g : F → G} {plus : G → G → G}
    (hm : 0 < m) (hbody : Streams body n A B m m f) (hop : ∀ x, x ≠ [] → (∀ a ∈ x, A a) → op x = .ok (x.map g))
    (hg : ∀ a, A a → B (g a))
    (hjoin : ∀ y h, (∀ b ∈ y, B b) → (∀ b ∈ h, B b) → y.length = h.length → join y h = .ok (y.zipWith plus h))
    (hplus : ∀ a b, B a → B b → B (plus a b)) :
    Streams (fun x => do let h ← Py.ofExcept (op x); let y ← body x; Py.ofExcept (join y h)) n A B m m
      (fun l => (f l).zipWith plus (l.map g)) := by
  obtain ⟨Holds, hf⟩ := hbody
  refine ⟨fun past own => Holds past own ∧ (f past).length = past.length, ?_, ⟨hf.start, by rw [hf.nil]; rfl⟩,
    fun h => hf.length h.1, ?_⟩
  · rw [hf.nil]
    rfl
  · rintro past own chunk ⟨ho, hflen⟩ hA hlen pre post
    obtain ⟨y, own', hrun, hown', hfy, hBy, hleny⟩ := hf.step ho hA hlen pre post
    have hchunk : ∀ a ∈ chunk, A a := fun a ha => hA a (List.mem_append_right _ ha)
    have hBg : ∀ b ∈ chunk.map g, B b := by
      intro b hb
      obtain ⟨a, ha, rfl⟩ := List.mem_map.1 hb
      exact hg a (hchunk a ha)
    have hsame : y.length = (chunk.map g).length := by rw [hleny, List.length_map, hlen]
    refine ⟨y.zipWith plus (chunk.map g), own', ?_, ⟨hown', ?_⟩, ?_, ?_, ?_⟩
    · rw [Py.run_bind_ofExcept, hop chunk (ne_nil_of_pace hm hlen) hchunk]
      refine (Py.run_bind_ok hrun _).trans ?_
      rw [hjoin y _ hBy hBg hsame]
      rfl
    · rw [hfy, List.length_append, List.length_append, hflen, hleny, hlen]
    · rw [hfy, List.map_append, List.zipWith_append (by rw [hflen, List.length_map])]
    · intro b hb
      obtain ⟨i, hi, rfl⟩ := List.mem_iff_getElem.1 hb
      rw [List.getElem_zipWith]
      exact hplus _ _ (hBy _ (List.getElem_mem _)) (hBg _ (List.getElem_mem _))
    · rw [List.length_zipWith, ← hsame, Nat.min_self, hleny]

/-- a stage of one slot, by what the slot holds after a past; R is what is known of a past -/
theorem slot {work : Option κ → List F → Except PyErr (List G × κ)} (after : List F → Option κ) (R : List F → Prop)
    {f : List F → List G} (hnil : f [] = []) (hafter : after [] = none) (hR : R [])
    (hwork : ∀ past chunk, R past → (∀ x ∈ past ++ chunk, A x) → chunk.length = pace m past →
      ∃ out c, work (after past) chunk = .ok (out, c) ∧ after (past ++ chunk) = some c ∧ R (past ++ chunk) ∧
        f (past ++ chunk) = f past ++ out ∧ (∀ y ∈ out, B y) ∧ out.length = pace m' past) :
    Streams (useSlot work) 1 A B m m' f := by
  refine ⟨fun past own => own = [after past] ∧ R past, hnil, ⟨by rw [hafter]; rfl, hR⟩, fun h => by rw [h.1]; rfl, ?_⟩
  rintro past own chunk ⟨rfl, hpast⟩ hA hlen pre post
  obtain ⟨out, c, hw, hc, hR', hout⟩ := hwork past chunk hpast hA hlen
  refine ⟨out, [some c], ?_, ⟨by rw [hc], hR'⟩, hout⟩
  simpa only [List.append_assoc, List.singleton_append] using run_useSlot hw pre post

end Streams

/-! ## Stages in a row -/

/-- `for stage in stages: x = stage(x)` -/
def chain {σ : Type} : List (List F → Py σ (List F)) → List F → Py σ (List F)
  | [], x => pure x
  | stage :: rest, x => stage x >>= chain rest

theorem chain_append {σ : Type} (a b : List (List F → Py σ (List F))) (x : List F) :
    chain (a ++ b) x = chain a x >>= chain b := by
  induction a generalizing x with
  | nil => rfl
  | cons stage a ih =>
    change (stage x >>= chain (a ++ b)) = (stage x >>= chain a) >>= chain b
    rw [Py.bind_assoc, show chain (a ++ b) = fun y => chain a y >>= chain b from funext ih]

namespace Streams

theorem chain_nil (A : F → Prop) (m : ℕ) : Streams (κ := κ) (chain []) 0 A A m m id :=
  ⟨fun _ own => own = [], rfl, rfl, fun h => by rw [h]; rfl,
    fun {_ _ chunk} ho _ hlen pre post => ⟨chunk, [], by rw [ho]; rfl, rfl, rfl, fun y hy => by simp_all, hlen⟩⟩

theorem chain_cons {A B C : F → Prop} {stage : List F → Py (Slots κ) (List F)}
    {rest : List (List F → Py (Slots κ) (List F))} {f g : List F → List F} (hf : Streams stage n A B m m' f)
    (hg : Streams (chain rest) n' B C m' m'' g) : Streams (chain (stage :: rest)) (n + n') A C m m'' (g ∘ f) :=
  comp hf hg

theorem chain_append {A B C : F → Prop} {a b : List (List F → Py (Slots κ) (List F))} {f g : List F → List F}
    (hf : Streams (chain a) n A B m m' f) (hg : Streams (chain b) n' B C m' m'' g) :
    Streams (chain (a ++ b)) (n + n') A C m m'' (g ∘ f) := by
  rw [show chain (a ++ b) = fun x => chain a x >>= chain b from funext (Streaming.chain_append a b)]
  exact comp hf hg

end Streams

/-! ## Side inputs -/

/-- the next side input is joined to what a stage gave -/
def popJoin (join : List F → E → Except PyErr (List F)) (y : List F) : List E → Except PyErr (List F × List E)
  | [] => .error ⟨.indexError, "pop from empty list"⟩
  | e :: extra => do
    let z ← join y e
    pure (z, extra)

/-- `for stage in stages: x = join(stage(x), extra.pop(0))`, and the side inputs that are left -/
def chainJoin {σ : Type} (join : List F → E → Except PyErr (List F)) :
    List (List F → Py σ (List F)) → List F → List E → Py σ (List F × List E)
  | [], x, extra => pure (x, extra)
  | stage :: rest, x, extra => do
    let y ← stage x
    let r ← Py.ofExcept (popJoin join y extra)
    chainJoin join rest r.1 r.2

/-- how long a chunk is: the first one is a single item -/
def chunkLength (m : ℕ) (started : Bool) : ℕ := if started then m else 1

/-- `Holds b` is what the n slots hold before the first chunk (b is false) or after some. A stage takes one side input
for each of Q, which says when it fits, and leaves the rest; if those it takes are neutral, it does what `bare` does. -/
structure ServesBy (Holds : Bool → List (Option κ) → Prop) (forward : List F → List E → Py (Slots κ) (List G × List E))
    (bare : List F → Py (Slots κ) (List G)) (neutral : E → Prop) (Q : List (Bool → E → Prop)) (n : ℕ) (A : F → Prop)
    (B : G → Prop) (m m' : ℕ) : Prop where
  start : Holds false (List.replicate n none)
  length : ∀ {started own}, Holds started own → own.length = n
  step : ∀ {started own chunk extra}, Holds started own → (∀ x ∈ chunk, A x) → chunk.length = chunkLength m started →
    List.Forall₂ (fun q e => q started e) Q extra →
    ∀ more pre post, ∃ out own', (forward chunk (extra ++ more)).run ⟨pre ++ own ++ post, pre.length⟩ =
        (.ok (out, more), ⟨pre ++ own' ++ post, pre.length + n⟩) ∧
      ((∀ e ∈ extra, neutral e) → (bare chunk).run ⟨pre ++ own ++ post, pre.length⟩ =
        (.ok out, ⟨pre ++ own' ++ post, pre.length + n⟩)) ∧
      Holds true own' ∧ (∀ y ∈ out, B y) ∧ out.length = chunkLength m' started

def Serves (forward : List F → List E → Py (Slots κ) (List G × List E)) (bare : List F → Py (Slots κ) (List G))
    (neutral : E → Prop) (Q : List (Bool → E → Prop)) (n : ℕ) (A : F → Prop) (B : G → Prop) (m m' : ℕ) : Prop :=
  ∃ Holds, ServesBy Holds forward bare neutral Q n A B m m'

/-- a side input that can be joined to any chunk a stage gives; a neutral one makes no difference to it -/
def Joins (join : List F → E → Except PyErr (List F)) (neutral : E → Prop) (q : Bool → E → Prop) (B : F → Prop) (m : ℕ) :
    Prop :=
  ∀ started y e, (∀ b ∈ y, B b) → y.length = chunkLength m started → q started e →
    ∃ z, join y e = .ok z ∧ (∀ b ∈ z, B b) ∧ z.length = y.length ∧ (neutral e → z = y)

namespace Serves

variable {neutral : E → Prop} {Q Q' : List (Bool → E → Prop)}

/-- a stage that streams serves any chunks, wherever they come from, and no side input -/
theorem of_streams {bare : List F → Py (Slots κ) (List G)} {f : List F → List G} (h : Streams bare n A B m m' f) :
    Serves (fun x (extra : List E) => do let y ← bare x; pure (y, extra)) bare neutral [] n A B m m' := by
  obtain ⟨Holds, h⟩ := h
  refine ⟨fun started own => ∃ past, Holds past own ∧ (∀ x ∈ past, A x) ∧ (past = [] ↔ started = false), ?_, ?_, ?_⟩
  · exact ⟨[], h.start, by simp, by simp⟩
  · rintro started own ⟨past, ho, -⟩
    exact h.length ho
  · rintro started own chunk extra ⟨past, ho, hA, hstarted⟩ hchunk hlen hextra more pre post
    obtain rfl := List.forall₂_nil_left_iff.1 hextra
    have hall : ∀ x ∈ past ++ chunk, A x := by
      intro x hx
      rcases List.mem_append.1 hx with hin | hin
      · exact hA x hin
      · exact hchunk x hin
    have hpace : ∀ k : ℕ, chunkLength k started = pace k past := by
      intro k
      cases started with
      | false => rw [hstarted.2 rfl]; rfl
      | true => rw [pace_of_ne fun e => by simpa using hstarted.1 e]; rfl
    obtain ⟨out, own', hrun, ho', -, hB, hout⟩ := h.step ho hall (hlen.trans (hpace m)) pre post
    have hsome : chunk ≠ [] ∨ past ≠ [] := by
      cases started with
      | false => exact Or.inl (List.length_pos_iff.1 (by rw [hlen]; exact one_pos))
      | true => exact Or.inr fun e => by simpa using hstarted.1 e
    refine ⟨out, own', Py.run_bind_ok hrun _, fun _ => hrun, ⟨past ++ chunk, ho', hall, ?_⟩, hB, hout.trans (hpace m').symm⟩
    simp only [List.append_eq_nil_iff, reduceCtorEq, iff_false, not_and_or]
    exact hsome.symm

/-- one stage after another -/
theorem comp {forward : List F → List E → Py (Slots κ) (List G × List E)} {bare : List F → Py (Slots κ) (List G)}
    {forward' : List G → List E → Py (Slots κ) (List H × List E)} {bare' : List G → Py (Slots κ) (List H)}
    (hf : Serves forward bare neutral Q n A B m m') (hg : Serves forward' bare' neutral Q' n' B C m' m'') :
    Serves (fun x extra => do let r ← forward x extra; forward' r.1 r.2) (fun x => bare x >>= bare') neutral (Q ++ Q')
      (n + n') A C m m'' := by
  obtain ⟨Holds, hf⟩ := hf
  obtain ⟨Holds', hg⟩ := hg
  refine ⟨fun started own => ∃ o o', own = o ++ o' ∧ Holds started o ∧ Holds' started o', ?_, ?_, ?_⟩
  · exact ⟨_, _, List.replicate_add n n' none, hf.start, hg.start⟩
  · rintro started own ⟨o, o', rfl, ho, ho'⟩
    rw [List.length_append, hf.length ho, hg.length ho']
  · rintro started own chunk extra ⟨o, o', rfl, ho, ho'⟩ hA hlen hextra more pre post
    obtain ⟨e, e', rfl, he, he'⟩ : ∃ e e', extra = e ++ e' ∧ List.Forall₂ (fun q e => q started e) Q e ∧
        List.Forall₂ (fun q e => q started e) Q' e' :=
      ⟨_, _, (List.take_append_drop Q.length extra).symm, (List.forall₂_take_append _ _ _ hextra.flip).flip,
        (List.forall₂_drop_append _ _ _ hextra.flip).flip⟩
    obtain ⟨y, own₁, hrun, hbare, hown₁, hB, hleny⟩ := hf.step ho hA hlen he (e' ++ more) pre (o' ++ post)
    obtain ⟨z, own₂, hrun', hbare', hown₂, hC, hlenz⟩ := hg.step ho' hB hleny he' more (pre ++ own₁) post
    have hn := hf.length hown₁
    rw [List.length_append, hn] at hrun' hbare'
    simp only [List.append_assoc] at hrun hrun' hbare hbare' ⊢
    refine ⟨z, own₁ ++ own₂, ?_, fun hneutral => ?_, ⟨own₁, own₂, rfl, hown₁, hown₂⟩, hC, hlenz⟩
    · rw [List.append_assoc, Py.run_bind_ok hrun, hrun', Nat.add_assoc]
    · rw [List.append_assoc, Py.run_bind_ok (hbare fun a ha => hneutral a (List.mem_append_left _ ha)),
        hbare' (fun a ha => hneutral a (List.mem_append_right _ ha)), Nat.add_assoc]

/-- a side input is joined to what a stage gives -/
theorem join_one {bare : List F → Py (Slots κ) (List G)} {f : List F → List G} (h : Streams bare n A B m m' f)
    {join : List G → E → Except PyErr (List G)} {q : Bool → E → Prop} (hjoin : Joins join neutral q B m') :
    Serves (fun x extra => do let y ← bare x; Py.ofExcept (popJoin join y extra)) bare neutral [q] n A B m m' := by
  have hserves : Serves _ bare neutral [] n A B m m' := of_streams (E := E) h
  obtain ⟨Holds, h⟩ := hserves
  refine ⟨Holds, h.start, h.length, ?_⟩
  rintro started own chunk extra ho hA hlen hextra more pre post
  obtain ⟨e, he, rfl⟩ : ∃ e, q started e ∧ extra = [e] := by
    rcases hextra with _ | ⟨he, hnil⟩
    obtain rfl := List.forall₂_nil_left_iff.1 hnil
    exact ⟨_, he, rfl⟩
  obtain ⟨y, own', -, hbare, ho', hB, hleny⟩ := h.step ho hA hlen .nil [] pre post
  have hbare := hbare (by simp)
  obtain ⟨z, hz, hBz, hlenz, hneutral⟩ := hjoin started y e hB hleny he
  refine ⟨z, own', ?_, fun hall => ?_, ho', hBz, hlenz.trans hleny⟩
  · rw [Py.run_bind_ok hbare, List.singleton_append, popJoin, hz]
    rfl
  · rw [hneutral (hall e List.mem_cons_self)]
    exact hbare

theorem chainJoin_nil (join : List F → E → Except PyErr (List F)) (neutral : E → Prop) (A : F → Prop) (m : ℕ) :
    Serves (κ := κ) (chainJoin join []) (chain []) neutral [] 0 A A m m :=
  of_streams (Streams.chain_nil A m)

theorem chainJoin_cons {A B C : F → Prop} {join : List F → E → Except PyErr (List F)}
    {stage : List F → Py (Slots κ) (List F)} {rest : List (List F → Py (Slots κ) (List F))} {f : List F → List F}
    {q : Bool → E → Prop} (hf : Streams stage n A B m m' f) (hjoin : Joins join neutral q B m')
    (hg : Serves (chainJoin join rest) (chain rest) neutral Q n' B C m' m'') :
    Serves (chainJoin join (stage :: rest)) (chain (stage :: rest)) neutral (q :: Q) (n + n') A C m m'' := by
  have hboth := comp (join_one hf hjoin) hg
  simp only [Py.bind_assoc] at hboth
  exact hboth

end Serves

/-! ## Chunk after chunk -/

/-- chunks 0, ..., n - 1 through the stage, each from the first slot on, and what it gives joined to one sequence -/
def feed (forward : List F → Py (Slots κ) (List G)) (join : List G → List G → Except PyErr (List G))
    (chunk : ℕ → List F) : ℕ → Py (Slots κ) (Option (List G))
  | 0 => pure none
  | i + 1 => do
    let out ← feed forward join chunk i
    Py.modify fun s => { s with idx := 0 }
    let out' ← forward (chunk i)
    match out with
    | none => pure (some out')
    | some out => do
      let r ← Py.ofExcept (join out out')
      pure (some r)

/-- the chunks up to number i, put together -/
def fed (chunk : ℕ → List F) (i : ℕ) : List F := (List.range (i + 1)).flatMap chunk

theorem fed_zero (chunk : ℕ → List F) : fed chunk 0 = chunk 0 := by simp [fed, List.range_succ]

theorem fed_succ (chunk : ℕ → List F) (i : ℕ) : fed chunk (i + 1) = fed chunk i ++ chunk (i + 1) := by
  rw [fed, List.range_succ, List.flatMap_append, List.flatMap_singleton]
  rfl

theorem mem_fed {chunk : ℕ → List F} {i : ℕ} {x : F} (h : x ∈ fed chunk i) : ∃ j ≤ i, x ∈ chunk j := by
  obtain ⟨j, hj, hx⟩ := List.mem_flatMap.1 h
  exact ⟨j, Nat.lt_succ_iff.1 (List.mem_range.1 hj), hx⟩

/-- chunks a stage can take: items that meet A, a single one first and m of them later -/
structure Paced (A : F → Prop) (m : ℕ) (chunk : ℕ → List F) (N : ℕ) : Prop where
  items : ∀ i ≤ N, ∀ x ∈ chunk i, A x
  first : (chunk 0).length = 1
  later : ∀ i, 0 < i → i ≤ N → (chunk i).length = m

theorem Paced.le {chunk : ℕ → List F} {M N : ℕ} (h : Paced A m chunk N) (hM : M ≤ N) : Paced A m chunk M :=
  ⟨fun i hi => h.items i (hi.trans hM), h.first, fun i h₀ hi => h.later i h₀ (hi.trans hM)⟩

theorem Paced.fed {chunk : ℕ → List F} {N : ℕ} (h : Paced A m chunk N) : ∀ x ∈ fed chunk N, A x := by
  intro x hx
  obtain ⟨j, hj, hxj⟩ := mem_fed hx
  exact h.items j hj x hxj

theorem Paced.fed_ne {chunk : ℕ → List F} {N : ℕ} (h : Paced A m chunk N) (i : ℕ) : Streaming.fed chunk i ≠ [] := by
  intro e
  have hfirst := h.first
  have hnil : chunk 0 = [] := by
    have hall := List.flatMap_eq_nil_iff.1 e
    exact hall 0 (List.mem_range.2 (Nat.succ_pos i))
  simp [hnil] at hfirst

section Feed

variable {forward : List F → Py (Slots κ) (List G)} {f : List F → List G}
  {join : List G → List G → Except PyErr (List G)} {chunk : ℕ → List F} {N : ℕ}

/-- by induction on the chunks: the slots hold those taken so far -/
theorem StreamsBy.feed {Holds : List F → List (Option κ) → Prop} (h : StreamsBy Holds forward n A B m m' f)
    (hjoin : ∀ y z, (∀ b ∈ y ++ z, B b) → join y z = .ok (y ++ z)) (hpaced : Paced A m chunk N) (post : List (Option κ))
    (idx : ℕ) :
    ∃ own, Holds (fed chunk N) own ∧
      (Streaming.feed forward join chunk (N + 1)).run ⟨List.replicate n none ++ post, idx⟩ =
        (.ok (some (f (fed chunk N))), ⟨own ++ post, n⟩) ∧
      (∀ b ∈ f (fed chunk N), B b) ∧ (f (fed chunk N)).length = 1 + m' * N := by
  -- one round, from any past
  have hround : ∀ i past own, Holds past own → (∀ x ∈ past ++ chunk i, A x) → (chunk i).length = pace m past →
      ∃ out own', (forward (chunk i)).run ⟨own ++ post, 0⟩ = (.ok out, ⟨own' ++ post, n⟩) ∧ Holds (past ++ chunk i) own' ∧
        f (past ++ chunk i) = f past ++ out ∧ (∀ y ∈ out, B y) ∧ out.length = pace m' past := by
    intro i past own ho hx hlen
    simpa using h.step ho hx hlen [] post
  induction N with
  | zero =>
    obtain ⟨out, own, hrun, ho, hfo, hB, hlen⟩ :=
      hround 0 [] _ h.start (fun x hx => hpaced.items 0 le_rfl x (by simpa using hx)) hpaced.first
    rw [List.nil_append] at ho hfo
    rw [h.nil, List.nil_append] at hfo
    rw [fed_zero, hfo]
    refine ⟨own, ho, ?_, hB, by rw [hlen, pace_nil, Nat.mul_zero]⟩
    refine (Py.run_bind_ok (a := none) rfl _).trans ?_
    rw [Py.run_bind_modify]
    exact Py.run_bind_ok hrun _
  | succ N ih =>
    obtain ⟨own, ho, hrun, hB, hlen⟩ := ih (hpaced.le (Nat.le_succ N))
    have hne := hpaced.fed_ne N
    obtain ⟨out, own', hrun', ho', hfo, hB', hlen'⟩ := hround (N + 1) _ own ho
      (fun x hx => hpaced.fed x (by rwa [fed_succ])) (by rw [pace_of_ne hne, hpaced.later (N + 1) (by omega) le_rfl])
    have hBall : ∀ b ∈ f (fed chunk N) ++ out, B b := by
      intro b hb
      rcases List.mem_append.1 hb with hin | hin
      · exact hB b hin
      · exact hB' b hin
    rw [fed_succ, hfo]
    refine ⟨own', ho', ?_, hBall, ?_⟩
    · refine (Py.run_bind_ok hrun _).trans ?_
      rw [Py.run_bind_modify]
      refine (Py.run_bind_ok hrun' _).trans ?_
      change (Py.ofExcept (join _ out) >>= _).run _ = _
      rw [hjoin _ _ hBall]
      rfl
    · rw [List.length_append, hlen, hlen', pace_of_ne hne]
      ring

/-- **A sequence fed in chunks.** From fresh slots, the loop gives what f gives on all the chunks put together. -/
theorem Streams.feed (h : Streams forward n A B m m' f) (hjoin : ∀ y z, (∀ b ∈ y ++ z, B b) → join y z = .ok (y ++ z))
    (hpaced : Paced A m chunk N) {slots : ℕ} (hslots : n ≤ slots) (idx : ℕ) :
    ∃ s, (Streaming.feed forward join chunk (N + 1)).run ⟨List.replicate slots none, idx⟩ =
        (.ok (some (f (fed chunk N))), s) ∧
      (∀ b ∈ f (fed chunk N), B b) ∧ (f (fed chunk N)).length = 1 + m' * N := by
  obtain ⟨Holds, h⟩ := h
  obtain ⟨own, -, hrun, hrest⟩ := h.feed hjoin hpaced (List.replicate (slots - n) none) idx
  rw [← List.replicate_add, Nat.add_sub_cancel' hslots] at hrun
  exact ⟨_, hrun, hrest⟩

/-- later chunks only add to what earlier ones gave -/
theorem Streams.grows (h : Streams forward n A B m m' f) (hpaced : Paced A m chunk N) {M : ℕ} (hM : M ≤ N) :
    f (fed chunk M) <+: f (fed chunk N) := by
  obtain ⟨Holds, h⟩ := h
  induction N with
  | zero =>
    obtain rfl : M = 0 := Nat.le_zero.1 hM
    exact List.prefix_rfl
  | succ N ih =>
    rcases Nat.lt_succ_iff_lt_or_eq.1 (Nat.lt_succ_of_le hM) with hlt | rfl
    · obtain ⟨own, ho, -⟩ := h.feed (fun y z _ => Eq.refl (Except.ok (y ++ z))) (hpaced.le (Nat.le_succ N)) [] 0
      obtain ⟨out, _, -, -, hfo, -⟩ := h.step ho (fun x hx => hpaced.fed x (by rwa [fed_succ]))
        (by rw [pace_of_ne (hpaced.fed_ne N), hpaced.later (N + 1) (by omega) le_rfl]) [] []
      rw [fed_succ, hfo]
      exact (ih (hpaced.le (Nat.le_succ N)) (Nat.lt_succ_iff.1 hlt)).trans (List.prefix_append _ _)
    · exact List.prefix_rfl

end Feed

/-! ## Rounds that differ -/

/-- rounds 0, ..., n - 1, each from the first slot on, and what they give joined to one sequence -/
def feedAt (round : ℕ → Py (Slots κ) (List G)) (join : List G → List G → Except PyErr (List G)) :
    ℕ → Py (Slots κ) (Option (List G))
  | 0 => pure none
  | i + 1 => do
    let out ← feedAt round join i
    Py.modify fun s => { s with idx := 0 }
    let out' ← round i
    match out with
    | none => pure (some out')
    | some out => do
      let r ← Py.ofExcept (join out out')
      pure (some r)

section FeedAt

variable {round round' : ℕ → Py (Slots κ) (List G)} {join : List G → List G → Except PyErr (List G)}

theorem feed_eq (forward : List F → Py (Slots κ) (List G)) (chunk : ℕ → List F) (n : ℕ) :
    feed forward join chunk n = feedAt (fun i => forward (chunk i)) join n := by
  induction n with
  | zero => rfl
  | succ n ih =>
    rw [feed, feedAt, ih]

theorem feedAt_congr {n : ℕ} (h : ∀ i < n, round i = round' i) : feedAt round join n = feedAt round' join n := by
  induction n with
  | zero => rfl
  | succ n ih => rw [feedAt, feedAt, ih fun i hi => h i (Nat.lt_succ_of_lt hi), h n (Nat.lt_succ_self n)]

/-- one more round behind those that ran, from the slots they left -/
theorem feedAt_succ {n : ℕ} {s s' s'' : Slots κ} {o : Option (List G)} {y : List G}
    (h : (feedAt round join n).run s = (.ok o, s')) (hround : (round n).run { s' with idx := 0 } = (.ok y, s''))
    (hjoin : ∀ z, o = some z → join z y = .ok (z ++ y)) :
    (feedAt round join (n + 1)).run s = (.ok (some (o.getD [] ++ y)), s'') := by
  rw [feedAt, Py.run_bind_ok h, Py.run_bind_modify, Py.run_bind_ok hround]
  cases o with
  | none => rfl
  | some z =>
    simp only [hjoin z rfl]
    rfl

/-- a round that raises -/
theorem feedAt_error {n k : ℕ} {s s' : Slots κ} {out : Option (List G)} {e : PyErr}
    (h : (feedAt round join k).run s = (.ok out, s')) (hround : ∀ s, ((round k).run s).1 = .error e) (hk : k < n) :
    ((feedAt round join n).run s).1 = .error e := by
  induction n with
  | zero => exact absurd hk (Nat.not_lt_zero k)
  | succ n ih =>
    rw [feedAt]
    rcases Nat.lt_succ_iff_lt_or_eq.1 hk with hlt | rfl
    · have hfail := ih hlt
      cases hrun : (feedAt round join n).run s with
      | mk r s₁ =>
        rw [hrun] at hfail
        obtain rfl : r = .error e := hfail
        rw [Py.run_bind_error hrun]
    · rw [Py.run_bind_ok h, Py.run_bind_modify]
      have hfail := hround { s' with idx := 0 }
      cases hrun : (round k).run { s' with idx := 0 } with
      | mk r s₁ =>
        rw [hrun] at hfail
        obtain rfl : r = .error e := hfail
        rw [Py.run_bind_error hrun]

/-- what a round that ran did -/
theorem feedAt_inv {n : ℕ} {s s' : Slots κ} {o : Option (List G)}
    (h : (feedAt round join (n + 1)).run s = (.ok o, s')) :
    ∃ prev s₁ y out, (feedAt round join n).run s = (.ok prev, s₁) ∧ o = some out ∧ (prev = none → out = y) ∧
      ∀ z, prev = some z → join z y = .ok out := by
  rw [feedAt, Py.run_bind] at h
  cases hrun : (feedAt round join n).run s with
  | mk r s₁ =>
    rw [hrun] at h
    cases r with
    | error e => cases h
    | ok prev =>
      simp only [Py.run_bind_modify] at h
      rw [Py.run_bind] at h
      cases hround : (round n).run { s₁ with idx := 0 } with
      | mk r' s₂ =>
        rw [hround] at h
        cases r' with
        | error e => cases h
        | ok y =>
          cases prev with
          | none =>
            cases h
            exact ⟨none, s₁, y, y, rfl, rfl, fun _ => rfl, nofun⟩
          | some z =>
            simp only [Py.run_bind_ofExcept] at h
            cases hj : join z y with
            | error e => rw [hj] at h; cases h
            | ok out =>
              rw [hj] at h
              cases h
              refine ⟨some z, s₁, y, out, rfl, rfl, nofun, fun z' hz => ?_⟩
              obtain rfl : z = z' := Option.some.inj hz
              exact hj

/-- fewer rounds give the beginning of what more of them give -/
theorem feedAt_le {n k : ℕ} {s s' : Slots κ} {out : List G} (hjoin : ∀ y z r, join y z = .ok r → r = y ++ z)
    (h : (feedAt round join n).run s = (.ok (some out), s')) (hk : 0 < k) (hkn : k ≤ n) :
    ∃ out' s'', (feedAt round join k).run s = (.ok (some out'), s'') ∧ out' <+: out := by
  induction n generalizing out s' with
  | zero => omega
  | succ n ih =>
    rcases Nat.lt_succ_iff_lt_or_eq.1 (Nat.lt_succ_of_le hkn) with hlt | rfl
    · obtain ⟨n, rfl⟩ : ∃ j, n = j + 1 := ⟨n - 1, by omega⟩
      obtain ⟨prev, s₁, y, out₁, hrun, heq, -, hj⟩ := feedAt_inv h
      cases heq
      obtain ⟨-, -, -, z, -, rfl, -⟩ := feedAt_inv hrun
      obtain ⟨out', s'', hout', hprefix⟩ := ih hrun (by omega)
      exact ⟨out', s'', hout', hprefix.trans (by rw [hjoin z y _ (hj z rfl)]; exact List.prefix_append z y)⟩
    · exact ⟨out, s', h, List.prefix_rfl⟩

/-- **A sequence fed in chunks, with side inputs.** From fresh slots, the loop runs, whatever the side inputs make of the
chunks; if they are all neutral it does what the stage does without them. -/
theorem Serves.feedAt {forward : List F → List E → Py (Slots κ) (List G × List E)}
    {bare : List F → Py (Slots κ) (List G)} {neutral : E → Prop} {Q : List (Bool → E → Prop)}
    (h : Serves forward bare neutral Q n A B m m') {chunk : ℕ → List F} {extra : ℕ → List E} {N : ℕ}
    (hjoin : ∀ y z, (∀ b ∈ y ++ z, B b) → join y z = .ok (y ++ z)) (hpaced : Paced A m chunk N)
    (hextra : ∀ i ≤ N, List.Forall₂ (fun q e => q (decide (0 < i)) e) Q (extra i)) {slots : ℕ} (hslots : n ≤ slots)
    (idx : ℕ) :
    ∃ out s, (Streaming.feedAt (fun i => do let r ← forward (chunk i) (extra i); pure r.1) join (N + 1)).run
        ⟨List.replicate slots none, idx⟩ = (.ok (some out), s) ∧ (∀ b ∈ out, B b) ∧ out.length = 1 + m' * N ∧
      ((∀ i ≤ N, ∀ e ∈ extra i, neutral e) → (feed bare join chunk (N + 1)).run ⟨List.replicate slots none, idx⟩ =
        (.ok (some out), s)) := by
  obtain ⟨Holds, h⟩ := h
  have hmain : ∃ own out, Holds true own ∧
      (Streaming.feedAt (fun i => do let r ← forward (chunk i) (extra i); pure r.1) join (N + 1)).run
        ⟨List.replicate slots none, idx⟩ = (.ok (some out), ⟨own ++ List.replicate (slots - n) none, n⟩) ∧
      (∀ b ∈ out, B b) ∧ out.length = 1 + m' * N ∧
      ((∀ i ≤ N, ∀ e ∈ extra i, neutral e) → (feed bare join chunk (N + 1)).run ⟨List.replicate slots none, idx⟩ =
        (.ok (some out), ⟨own ++ List.replicate (slots - n) none, n⟩)) := by
    -- one round, by what the slots hold before it
    have hround : ∀ i ≤ N, ∀ own, Holds (decide (0 < i)) own →
        ∃ out own', (do let r ← forward (chunk i) (extra i); pure r.1 : Py (Slots κ) (List G)).run
            ⟨own ++ List.replicate (slots - n) none, 0⟩ = (.ok out, ⟨own' ++ List.replicate (slots - n) none, n⟩) ∧
          ((∀ e ∈ extra i, neutral e) → (bare (chunk i)).run ⟨own ++ List.replicate (slots - n) none, 0⟩ =
            (.ok out, ⟨own' ++ List.replicate (slots - n) none, n⟩)) ∧
          Holds true own' ∧ (∀ y ∈ out, B y) ∧ out.length = chunkLength m' (decide (0 < i)) := by
      intro i hi own ho
      have hlen : (chunk i).length = chunkLength m (decide (0 < i)) := by
        rcases Nat.eq_zero_or_pos i with rfl | hpos
        · exact hpaced.first
        · rw [decide_eq_true hpos]
          exact hpaced.later i hpos hi
      obtain ⟨out, own', hrun, hbare, hrest⟩ := h.step ho (hpaced.items i hi) hlen (hextra i hi) [] []
        (List.replicate (slots - n) none)
      simp only [List.append_nil, List.nil_append, List.length_nil, Nat.zero_add] at hrun hbare
      exact ⟨out, own', Py.run_bind_ok hrun _, hbare, hrest⟩
    induction N with
    | zero =>
      obtain ⟨out, own, hrun, hbare, ho, hB, hlen⟩ := hround 0 le_rfl _ h.start
      rw [← List.replicate_add, Nat.add_sub_cancel' hslots] at hrun hbare
      refine ⟨own, out, ho, feedAt_succ (o := none) rfl hrun (by simp), hB, by rw [hlen, Nat.mul_zero]; rfl, fun hn => ?_⟩
      rw [feed_eq]
      exact feedAt_succ (o := none) rfl (hbare (hn 0 le_rfl)) (by simp)
    | succ N ih =>
      obtain ⟨own, out, ho, hrun, hB, hlen, hneutral⟩ := ih (hpaced.le (Nat.le_succ N))
        (fun i hi => hextra i (hi.trans (Nat.le_succ N))) fun i hi => hround i (hi.trans (Nat.le_succ N))
      obtain ⟨y, own', hrun', hbare', ho', hB', hlen'⟩ := hround (N + 1) le_rfl own (by simpa using ho)
      have hall : ∀ b ∈ out ++ y, B b := by
        intro b hb
        rcases List.mem_append.1 hb with hin | hin
        · exact hB b hin
        · exact hB' b hin
      have hjoined : ∀ z, some out = some z → join z y = .ok (z ++ y) := by
        intro z hz
        cases hz
        exact hjoin out y hall
      refine ⟨own', out ++ y, ho', feedAt_succ hrun hrun' hjoined, hall, ?_, fun hn => ?_⟩
      · rw [List.length_append, hlen, hlen', decide_eq_true (Nat.succ_pos N), chunkLength, if_pos rfl]
        ring
      · have hbefore := hneutral fun i hi => hn i (hi.trans (Nat.le_succ N))
        rw [feed_eq] at hbefore ⊢
        exact feedAt_succ hbefore (hbare' (hn (N + 1) le_rfl)) hjoined
  obtain ⟨own, out, -, hrun, hrest⟩ := hmain
  exact ⟨out, _, hrun, hrest⟩

end FeedAt

end Viduce.Streaming
