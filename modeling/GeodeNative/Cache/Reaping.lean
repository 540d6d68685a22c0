import GeodeNative.Cache.SegmentSpec

/-!
# Collecting tombstones

Both variants of `reapTombstones` are given keys whose tombstones the server has collected, and take
these keys out of the map. Neither looks at what a key is bound to. A key that was created again
before the message arrives is taken out with its value.
-/

namespace GeodeNative

namespace MapSegment

variable {K V : Type*} [DecidableEq K]

/-- The object that a key is bound to, with its value and its stamp. -/
def binding (s : MapSegment K V) (k : K) : Option (ObjId × CacheValue V × VersionStamp) :=
  (s.map.lookup k).map fun e =>
    (e.target, (s.heap e.target).value, (s.heap e.target).versionStamp)

/-- Every entry that is no tombstone stays as it is. -/
def KeepsLive (s t : MapSegment K V) : Prop :=
  ∀ k b, s.binding k = some b → b.2.1 ≠ .tombstone → t.binding k = some b

/-- No such key is bound to an entry with another value than the tombstone. -/
def OnlyTombstones (s : MapSegment K V) (keys : K → Prop) : Prop :=
  ∀ k, keys k → ∀ b, s.binding k = some b → b.2.1 = .tombstone

lemma binding_reapKeys (s : MapSegment K V) (keys : List K) (k : K) :
    (s.reapKeys keys).binding k = if k ∈ keys then none else s.binding k := by
  unfold reapKeys
  induction keys generalizing s with
  | nil => simp
  | cons key _ ih =>
    rw [List.foldl_cons, ih]
    by_cases hk : k = key
    · subst hk
      simp [binding, removeEntry, unbind]
    · simp [binding, removeEntry, unbind, AList.lookup_erase_ne hk, hk]

lemma keepsLive_reapKeys (s : MapSegment K V) {keys : List K} :
    s.KeepsLive (s.reapKeys keys) ↔ s.OnlyTombstones (· ∈ keys) := by
  constructor
  · intro h k hk b hb
    by_contra hlive
    have hkept := h k b hb hlive
    rw [binding_reapKeys, if_pos hk] at hkept
    cases hkept
  · intro h k b hb hlive
    rw [binding_reapKeys, if_neg fun hk => hlive (h k hk b hb), hb]

/-- A listed tombstone is collected: its member is in `gcVersions`, with a version that is not
below the one the tombstone was written with. -/
def Collected (s : MapSegment K V) (gcVersions : AList (fun _ : BitVec 16 => ℤ)) (k : K) : Prop :=
  ∃ tomb ∈ s.tombstones.lookup k,
    let stamp := (s.heap (s.tombHeap tomb).entry).versionStamp
    ∃ version ∈ gcVersions.lookup stamp.memberId, stamp.getRegionVersion.toInt ≤ version

lemma mem_reapableKeys_iff (s : MapSegment K V) (gcVersions : AList (fun _ : BitVec 16 => ℤ))
    (k : K) : k ∈ s.reapableKeys gcVersions ↔ s.Collected gcVersions k := by
  rw [reapableKeys, List.mem_filter, ← AList.mem_keys, ← AList.lookup_isSome, Collected]
  cases s.tombstones.lookup k with
  | none => simp
  | some tomb =>
    simp only [Option.isSome_some, true_and, Option.mem_def, Option.some.injEq,
      exists_eq_left']
    cases gcVersions.lookup (s.heap (s.tombHeap tomb).entry).versionStamp.memberId with
    | none => simp
    | some version => simp

/-- Both variants of `reapTombstones` keep all entries that are no tombstones exactly when the keys
they are given, or those of collected tombstones, are bound to tombstones or not at all. -/
theorem keepsLive_reapTombstones_iff (s : MapSegment K V) (removedKeys : List K)
    (gcVersions : AList (fun _ : BitVec 16 => ℤ)) :
    (s.KeepsLive (s.reapKeys removedKeys) ↔ s.OnlyTombstones (· ∈ removedKeys)) ∧
      (s.KeepsLive (s.reapVersions gcVersions) ↔ s.OnlyTombstones (s.Collected gcVersions)) := by
  refine ⟨keepsLive_reapKeys s, (keepsLive_reapKeys s).trans ?_⟩
  simp only [OnlyTombstones, mem_reapableKeys_iff]

/-- A segment whose only entry is of the value given. -/
def single (concurrencyChecksEnabled : Bool) (value : CacheValue Unit) : MapSegment Unit Unit :=
  (empty concurrencyChecksEnabled 0 (fun _ => .create ()) fun _ => ⟨0, false⟩).bindNew ()
    { (MapEntryImpl.create () : MapEntryImpl Unit Unit) with value }

/-- A key that was created again before the message arrives is taken out of the map. -/
theorem not_keepsLive_recreated :
    ¬ (single true (.object ())).KeepsLive ((single true (.object ())).reapKeys [()]) := by
  intro h
  have hkept := h () (0, .object (), {}) rfl (by simp)
  simp [binding_reapKeys] at hkept

end MapSegment

end GeodeNative
