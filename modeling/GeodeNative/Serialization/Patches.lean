import GeodeNative.Library.Frames
import GeodeNative.Serialization.Appends

/-!
# Going back in an output

Numbers that are known only later are written over bytes that were left for them: the cursor goes
back, the number is written and the cursor returns. `run_patch` says what is before the cursor then.

`Emits` is the weaker form of `Appends` for methods whose bytes are not known in all cases, or that
fail for other reasons than memory.
-/

namespace GeodeNative

open List Function Nat

namespace DataOutput

variable {bytes : List (BitVec 8)}

/-! ## What a method emits -/

/-- From the output `s`, which has grown out of `s₀`, a method that returns leaves bytes with the
property `P` behind those of `s₀`, and otherwise, in good cases, there is no memory. -/
def EmitsAt (s₀ s : DataOutput) (m : WriteM Unit) (P : List (BitVec 8) → Prop) (good : Prop) :
    Prop :=
  match m.run s with
  | .ok _ s' => ∃ bytes, Grown s₀ s' bytes ∧ P bytes
  | .error e _ => good → e = .outOfMemory

/-- From every sound output a method that returns has appended bytes with the property `P`. -/
def Emits (m : WriteM Unit) (P : List (BitVec 8) → Prop) (good : Prop) : Prop :=
  ∀ s, Sound s → EmitsAt s s m P good

section Rules

variable {s₀ s s' : DataOutput} {m : WriteM Unit} {f : Unit → WriteM Unit}
  {P Q : List (BitVec 8) → Prop} {good good' : Prop}

lemma Appends.emits (h : Appends m bytes) (good : Prop) : Emits m (· = bytes) good := by
  intro s hs
  have happends := h s hs
  unfold AppendsAt at happends
  unfold EmitsAt
  cases hrun : m.run s with
  | ok =>
    rw [hrun] at happends
    exact ⟨bytes, happends, rfl⟩
  | error =>
    rw [hrun] at happends
    exact fun _ => happends.1

/-- The rule of consequence. -/
lemma EmitsAt.mono (h : EmitsAt s₀ s m P good) (hP : ∀ bytes, P bytes → Q bytes)
    (hgood : good' → good) : EmitsAt s₀ s m Q good' := by
  unfold EmitsAt at h ⊢
  split at h
  · exact h.imp fun bytes hbytes => ⟨hbytes.1, hP bytes hbytes.2⟩
  · exact fun hg => h (hgood hg)

lemma Emits.mono (h : Emits m P good) (hP : ∀ bytes, P bytes → Q bytes)
    (hgood : good' → good) : Emits m Q good' :=
  fun s hs => (h s hs).mono hP hgood

lemma EmitsAt.of_run (hrun : m.run s = .ok () s') (hgrown : Grown s₀ s' bytes) (hP : P bytes) :
    EmitsAt s₀ s m P good := by
  rw [EmitsAt, hrun]
  exact ⟨bytes, hgrown, hP⟩

lemma Emits.exists_of_run (h : Emits m P good) (hs : Sound s) (hrun : m.run s = .ok () s') :
    ∃ bytes, Grown s s' bytes ∧ P bytes := by
  have hemits := h s hs
  rwa [EmitsAt, hrun] at hemits

/-- The sequencing rule, with all that was written since the first state. -/
lemma EmitsAt.bind (hm : Emits m P good) (hgrown : Grown s₀ s bytes)
    (hf : ∀ s' b, P b → Grown s s' b → Grown s₀ s' (bytes ++ b) → EmitsAt s₀ s' (f ()) Q good) :
    EmitsAt s₀ s (m >>= f) Q good := by
  have hfirst := hm s hgrown.sound
  unfold EmitsAt at hfirst ⊢
  cases hrun : m.run s with
  | error =>
    rw [hrun] at hfirst
    rw [run_bind_of_error hrun]
    exact hfirst
  | ok _ s' =>
    rw [hrun] at hfirst
    obtain ⟨b, hb, hP⟩ := hfirst
    rw [run_bind_of_ok hrun]
    exact hf s' b hP hb (hgrown.trans hb)

lemma EmitsAt.get_bind {f : DataOutput → WriteM Unit} (h : EmitsAt s₀ s (f s) P good) :
    EmitsAt s₀ s (get >>= f) P good := by
  exact h

/-- The bytes of two methods follow each other. -/
lemma Emits.bind {m' : WriteM Unit} (hm : Emits m P good) (hm' : Emits m' Q good) :
    Emits (m >>= fun _ => m') (fun bytes => ∃ b b', bytes = b ++ b' ∧ P b ∧ Q b') good := by
  intro _ hs
  refine EmitsAt.bind hm (Grown.refl hs) fun s' b hP hgrown _ => ?_
  have hnext := hm' s' hgrown.sound
  unfold EmitsAt at hnext ⊢
  split at hnext
  · obtain ⟨b', hgrown', hQ⟩ := hnext
    exact ⟨b ++ b', hgrown.trans hgrown', b, b', rfl, hP, hQ⟩
  · exact hnext

/-- A method that throws emits whatever is asked for. -/
lemma emits_throw {e : WriteError} (h : good → e = .outOfMemory) : Emits (throw e) P good :=
  fun _ _ => h

/-- A method that never returns emits whatever is asked for. -/
lemma emits_of_ne_ok (h : ∀ s s', m.run s ≠ .ok () s') (hgood : ¬ good) : Emits m P good := by
  intro s _
  unfold EmitsAt
  cases hrun : m.run s with
  | ok _ s' => exact absurd hrun (h s s')
  | error => exact fun hg => absurd hg hgood

end Rules

/-! ## Patches -/

section Patches

variable {s s' : DataOutput} {i : ℕ} {back : BitVec 64} {b : BitVec 8}

lemma written_getElem? (hi : i < s.offset.toNat) : s.written[i]? = some (s.memory i) := by
  rw [written, getElem?_map, getElem?_range hi]
  rfl

/-- A byte that is patched in is the only one that changes. -/
lemma written_update (s : DataOutput) (hi : i < s.offset.toNat) :
    ({ s with memory := Function.update s.memory i b } : DataOutput).written =
      s.written.set i b := by
  have hmap : ∀ j, ({ s with memory := update s.memory i b } : DataOutput).written[j]? =
      if j < s.offset.toNat then some (update s.memory i b j) else none := by
    intro j
    by_cases hj : j < s.offset.toNat
    · rw [if_pos hj]
      exact written_getElem? hj
    · rw [if_neg hj]
      exact getElem?_eq_none (by rw [length_written]; exact not_lt.mp hj)
  apply ext_getElem?
  intro j
  rw [hmap, getElem?_set, length_written]
  by_cases hij : i = j
  · rw [if_pos (hij ▸ hi), if_pos hij, if_pos hi, hij, update_self]
  · rw [if_neg hij, update_of_ne (Ne.symm hij)]
    by_cases hj : j < s.offset.toNat
    · rw [if_pos hj, written_getElem? hj]
    · rw [if_neg hj, getElem?_eq_none (by rw [length_written]; omega)]

/-- An appended byte is found at its place in the memory. -/
lemma Grown.memory_eq (h : Grown s s' bytes) {k : ℕ}
    (hk : bytes[k]? = some b) : s'.memory (s.offset.toNat + k) = b := by
  have hlt : k < bytes.length := (List.getElem?_eq_some_iff.mp hk).1
  have hget := written_getElem? (show s.offset.toNat + k < s'.offset.toNat by
    rw [h.offset_eq]
    omega)
  rw [h.written_eq, getElem?_append_right (by rw [length_written]; omega), length_written,
    Nat.add_sub_cancel_left, hk] at hget
  exact (Option.some.inj hget).symm

/-- The bytes behind those that are written stay. -/
lemma writeAll_memory (hs : Sound s) (hroom : s.offset.toNat + bytes.length ≤ s.size.toNat)
    (hrun : (writeAll bytes).run s = .ok () s') (hi : s.offset.toNat + bytes.length ≤ i) :
    s'.memory i = s.memory i := by
  induction bytes generalizing s with
  | nil =>
    cases hrun
    rfl
  | cons b _ ih =>
    rw [length_cons] at hroom hi
    have hin : s.allocated = true ∧ s.offset < s.size := ⟨hs.allocated, by
      rw [BitVec.lt_def]
      omega⟩
    have hfirst : (writeNoCheck b).run s = .ok () { s with
        memory := update s.memory s.offset.toNat b, offset := s.offset + 1 } := by
      rw [writeNoCheck, run_get_bind, if_pos hin]
      rfl
    have hnext : (s.offset + 1).toNat = s.offset.toNat + 1 := by
      exact mod_eq_of_lt (by
        change s.offset.toNat + 1 < 2 ^ 64
        omega)
    obtain ⟨_, hrun₁, hgrown, -⟩ := writeNoCheck_run hs (by omega)
    rw [hfirst] at hrun₁
    cases hrun₁
    rw [writeAll, run_bind_of_ok hfirst] at hrun
    rw [ih hgrown.sound (by dsimp only; omega) hrun (by dsimp only; omega)]
    exact update_of_ne (by omega) _ _

/-- With room enough, `ensureCapacity` does nothing. -/
lemma ensureCapacity_run_of_le (hs : Sound s) {size : BitVec 64}
    (h : s.offset.toNat + size.toNat ≤ s.size.toNat) : (ensureCapacity size).run s = .ok () s := by
  rw [run_ensureCapacity, if_neg (by rw [hs.lt_iff]; omega)]

/-- The bytes behind the new position of the cursor go. -/
lemma rewindCursor_written (hs : Sound s) {pos : ℕ} (hpos : pos ≤ s.offset.toNat)
    (hback : back.toNat = s.offset.toNat - pos) :
    (rewindCursor back).run s = .ok () { s with offset := s.offset - back } ∧
      Sound { s with offset := s.offset - back } ∧ (s.offset - back).toNat = pos ∧
      ({ s with offset := s.offset - back } : DataOutput).written = s.written.take pos := by
  have hle := hs.offset_le
  have hoffset : (s.offset - back).toNat = pos := by
    rw [BitVec.toNat_sub]
    omega
  refine ⟨rfl, ⟨hs.allocated, hs.low_le, hs.size_lt, ?_⟩, hoffset, ?_⟩
  · dsimp only
    omega
  · rw [written, written, ← map_take, take_range]
    rw [hoffset, min_eq_left hpos]

/-- A number is written over bytes before the cursor, which returns to where it was. -/
lemma run_patch (hs : Sound s) {pos : ℕ} (hpos : pos + 4 ≤ s.offset.toNat) {ahead : BitVec 64}
    (hback : back.toNat = s.offset.toNat - pos) (hahead : ahead.toNat = s.offset.toNat - pos - 4)
    {v : BitVec 32} :
    ∃ s', (do rewindCursor back; writeInt32 v; advanceCursor ahead : WriteM Unit).run s =
        .ok () s' ∧ Sound s' ∧ s'.allocator = s.allocator ∧ s'.size = s.size ∧
      s'.written = s.written.take pos ++ bytesOfNat 4 v.toNat ++ s.written.drop (pos + 4) := by
  have hle := hs.offset_le
  obtain ⟨hrewind, hsound₁, hoffset₁, hwritten₁⟩ :=
    rewindCursor_written hs (le_of_add_right_le hpos) hback
  generalize hs₁ : ({ s with offset := s.offset - back } : DataOutput) = s₁ at *
  have hsize₁ : s₁.size = s.size := by rw [← hs₁]
  have hmem₁ : s₁.memory = s.memory := by rw [← hs₁]
  replace hoffset₁ : s₁.offset.toNat = pos := by rw [← hs₁]; exact hoffset₁
  have hroom : s₁.offset.toNat + (bytesOfNat 4 v.toNat).length ≤ s₁.size.toNat := by
    rw [length_bytesOfNat, hsize₁]
    omega
  obtain ⟨s₂, hrun₂, hgrown, hsize₂⟩ := writeAll_run hsound₁ (bytesOfNat 4 v.toNat) hroom
  have hwrite : (writeInt32 v).run s₁ = .ok () s₂ := by
    rw [writeInt32, writeBigEndian, run_bind_of_ok (ensureCapacity_run_of_le hsound₁ (by
      rw [hoffset₁, hsize₁]
      change pos + 4 ≤ s.size.toNat
      omega)), hrun₂]
  have hoffset₂ : s₂.offset.toNat = pos + 4 := by
    rw [hgrown.offset_eq, hoffset₁, length_bytesOfNat]
  have hend : (s₂.offset + ahead).toNat = s.offset.toNat := by
    rw [BitVec.toNat_add]
    omega
  refine ⟨{ s₂ with offset := s₂.offset + ahead }, ?_,
    ⟨hgrown.sound.allocated, hgrown.sound.low_le, hgrown.sound.size_lt, ?_⟩, ?_, ?_, ?_⟩
  · rw [run_bind_of_ok hrewind, run_bind_of_ok hwrite, advanceCursor, run_bind_of_ok
      (ensureCapacity_run_of_le hgrown.sound (by rw [hsize₂, hsize₁]; omega)),
      run_get_bind]
    rfl
  · rw [hend, hsize₂, hsize₁]
    exact hle
  · rw [hgrown.allocator_eq, ← hs₁]
  · rw [hsize₂, hsize₁]
  · -- before the number, the number, and behind it
    have hbefore : s₂.written = s.written.take pos ++ bytesOfNat 4 v.toNat := by
      rw [hgrown.written_eq, hwritten₁]
    apply ext_getElem?
    intro i
    by_cases hi : i < pos + 4
    · rw [getElem?_append_left (by rw [← hbefore, length_written]; omega), ← hbefore,
        written_getElem? (by dsimp only; omega), written_getElem? (by omega)]
    · rw [getElem?_append_right (by rw [← hbefore, length_written]; omega), ← hbefore,
        length_written, hoffset₂, List.getElem?_drop, Nat.add_sub_cancel' (by omega)]
      by_cases hi' : i < s.offset.toNat
      · rw [written_getElem? (by dsimp only; omega), written_getElem? hi',
          writeAll_memory hsound₁ hroom hrun₂ (by rw [length_bytesOfNat]; omega), hmem₁]
      · rw [getElem?_eq_none (by rw [length_written]; dsimp only; omega),
          getElem?_eq_none (by rw [length_written]; omega)]

end Patches

end DataOutput

end GeodeNative
