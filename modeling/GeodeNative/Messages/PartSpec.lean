import GeodeNative.Messages.Requests
import GeodeNative.Serialization.Patches

/-!
# What the writers of parts emit

Every writer emits the encoding of one part, with two exceptions. An empty string is written as two
bytes instead of five. The length of an array of `2 ^ 31` bytes or more is not the one that is
written before the array and read back from there; all that matters of such a part is that it is
longer than a message can be.
-/

namespace GeodeNative

open List BitVec Nat

open DataOutput FramedPart MessagePart Serializable EmitsAt

variable {value : List (BitVec 8)}

namespace Serializable

def objectBytes : Serializable → List (BitVec 8)
  | null => [41]
  | bytes value => 46 :: (arrayLenBytes (BitVec.ofNat 32 value.length) ++ value)
  | object o => o.serialize.bytes

/-- The bytes that `serializeWithoutHeader` appends, if it does not throw. -/
def dataBytes : Serializable → List (BitVec 8)
  | null => []
  | bytes value => arrayLenBytes (BitVec.ofNat 32 value.length) ++ value
  | object o => o.serializeWithoutHeader.bytes

/-- The bytes of the delta, if the object is a `Delta`. -/
def deltaBytes : Serializable → Option (List (BitVec 8))
  | object o => o.toDelta.map Writer.bytes
  | _ => none

lemma writeEach_appends : Appends (writeEach value) value := by
  induction value with
  | nil => exact Appends.pure
  | cons b _ ih => exact (write_appends b).bind ih

lemma writeObject_appends {se : Serializable} : Appends se.writeObject se.objectBytes := by
  cases se with
  | null => exact write_appends 41
  | bytes =>
    exact (write_appends 46).bind (writeArrayLen_appends.bind writeEach_appends)
  | object o => exact o.serialize.appends

lemma serializeWithoutHeader_emits (se : Serializable) :
    Emits se.serializeWithoutHeader (fun bytes => se.isNull = false ∧ bytes = se.dataBytes)
      (se.isNull = false) := by
  cases se with
  | null => exact emits_throw nofun
  | bytes =>
    exact ((writeArrayLen_appends.bind writeEach_appends).emits _).mono (fun _ h => ⟨rfl, h⟩) id
  | object o => exact (o.serializeWithoutHeader.appends.emits _).mono (fun _ h => ⟨rfl, h⟩) id

lemma toDelta_emits (se : Serializable) :
    Emits se.toDelta (fun bytes => se.deltaBytes = some bytes) (se.deltaBytes.isSome = true) := by
  cases se with
  | null | bytes => exact emits_throw nofun
  | object o =>
    obtain ⟨_, _, delta, _⟩ := o
    cases delta with
    | none => exact emits_throw nofun
    | some delta => exact (delta.appends.emits _).mono (fun _ h => congrArg some h.symm) id

end Serializable

/-! ## The parts of a message -/

namespace MessagePart

/-- The units of a string, if it can be converted. -/
def units (ctx : MessageContext) (str : List (BitVec 8)) : Option (List (BitVec 16)) :=
  toUtf16 ctx.codecvt .char (str.map BitVec.toNat)

/-- As many bytes as a length of 32 bits tells. -/
def cut (bytes : List (BitVec 8)) : List (BitVec 8) :=
  bytes.take (BitVec.ofNat 32 bytes.length).toNat

def objectPart (se : Serializable) (isDelta callToData : Bool) : FramedPart :=
  if se.isEmptyBytes then ⟨2, []⟩
  else if isDelta then ⟨0, se.deltaBytes.getD []⟩
  else
    match se with
    | .bytes value => ⟨0, value⟩
    | _ => ⟨1, if callToData then se.dataBytes else se.objectBytes⟩

def keyBytes (keys : List Serializable) : List (BitVec 8) :=
  52 :: (arrayLenBytes (BitVec.ofNat 32 keys.length) ++
    43 :: (87 :: asciiForm 2 0xFFFF ("java.lang.Object".toList.map Char.toNat) ++
      keys.flatMap Serializable.objectBytes))

/-- The part that a writer is for. -/
def framed (ctx : MessageContext) : MessagePart → FramedPart
  | region regionName => ⟨0, cut regionName⟩
  | string str => ⟨0, if str = [] then [] else cut (javaModifiedUtf8 ((units ctx str).getD []))⟩
  | int intValue => ⟨0, bytesOfNat 4 intValue.toNat⟩
  | byte byteValue => ⟨0, [byteValue]⟩
  | byteAndTimeOut byteValue timeout =>
    ⟨0, byteValue :: bytesOfNat 4 (timeout.setWidth 32 : BitVec 32).toNat⟩
  | milliseconds millis => ⟨0, bytesOfNat 4 (millis.setWidth 32 : BitVec 32).toNat⟩
  | interestResultPolicy policy => ⟨1, [1, 37, policy]⟩
  | eventId fullValueAfterDeltaFail =>
    ⟨0, 3 :: bytesOfNat 8 ctx.threadId.toNat ++ 3 :: bytesOfNat 8
      (if fullValueAfterDeltaFail then ctx.sequenceId else ctx.sequenceId + 1).toNat⟩
  | object se isDelta callToData => objectPart se isDelta callToData
  | keys none => ⟨1, [41]⟩
  | keys (some ks) => ⟨1, keyBytes ks⟩

/-- The length of a string is not negative when it is cut to 32 bits. -/
def Short (bytes : List (BitVec 8)) : Prop :=
  0 ≤ (BitVec.ofNat 32 bytes.length).toInt

/-- What the writer of a part does not run into: a negative length, a string that cannot be
converted, a delta that is none, a null pointer. -/
def Accepted (ctx : MessageContext) : MessagePart → Prop
  | region regionName => Short regionName
  | string str => str ≠ [] → ∃ us, units ctx str = some us ∧ Short (javaModifiedUtf8 us)
  | object se isDelta callToData =>
    se.isEmptyBytes = false →
      (isDelta = true → se.deltaBytes.isSome = true) ∧
        (isDelta = false → callToData = true → se.isNull = false)
  | _ => True

/-- The empty string, for which no part is written. -/
def isEmptyString : MessagePart → Bool
  | string str => str.isEmpty
  | _ => false

/-- An array of bytes that is longer than a message can be. -/
def Huge : MessagePart → Prop
  | object (.bytes value) false _ =>
    (Serializable.bytes value).isEmptyBytes = false ∧ 2 ^ 31 ≤ value.length
  | _ => False

/-- The bytes of a part that is not huge. -/
def emitted (ctx : MessageContext) (part : MessagePart) : List (BitVec 8) :=
  if part.isEmptyString then [0, 0] else (part.framed ctx).encode

end MessagePart

namespace TcrMessage

/-! ## Strings -/

variable {len : BitVec 32}

section Strings

variable {bytes : List (BitVec 8)}

lemma toNat_signExtend_of_nonneg (h : 0 ≤ len.toInt) :
    (len.signExtend 64).toNat = len.toNat ∧ len.toNat < 2 ^ 31 := by
  have hlt : len.toNat < 2 ^ 31 := by
    rw [toInt_eq_toNat_cond] at h
    split at h <;> omega
  refine ⟨?_, hlt⟩
  have hmsb : len.msb = false := by
    rw [msb_eq_false_iff_two_mul_lt]
    omega
  rw [signExtend_eq_setWidth_of_msb_false hmsb, toNat_setWidth]
  omega

/-- A part announces the length of what it writes. -/
lemma length_cut (bytes : List (BitVec 8)) :
    (cut bytes).length = (BitVec.ofNat 32 bytes.length).toNat := by
  rw [cut, length_take]
  exact min_eq_left (mod_le _ _)

/-- A negative length is never written. -/
lemma writeBytesOnlySigned_ne_ok (h : len.toInt < 0) (s s' : DataOutput) :
    (writeBytesOnlySigned bytes len).run s ≠ .ok () s' := by
  unfold writeBytesOnlySigned
  cases hrun : (ensureCapacity (len.signExtend 64)).run s with
  | error =>
    rw [run_bind_of_error hrun]
    nofun
  | ok =>
    rw [run_bind_of_ok hrun, if_pos h]
    nofun

lemma writeBytesOnlySigned_emits (bytes : List (BitVec 8)) :
    Emits (writeBytesOnlySigned bytes (BitVec.ofNat 32 bytes.length))
      (fun b => MessagePart.Short bytes ∧ b = cut bytes) (MessagePart.Short bytes) := by
  by_cases hshort : 0 ≤ (BitVec.ofNat 32 bytes.length).toInt
  · obtain ⟨_, _⟩ := toNat_signExtend_of_nonneg hshort
    have hlen := length_cut bytes
    have happends : Appends (writeBytesOnlySigned bytes (BitVec.ofNat 32 bytes.length))
        (cut bytes) := by
      intro _ hs
      refine AppendsAt.ensureCapacity_bind hs (by omega) (by omega) fun s' hgrown hroom => ?_
      rw [if_neg (Int.not_lt.mpr hshort)]
      refine writeAll_appendsAt hgrown.sound ?_
      change s'.offset.toNat + (cut bytes).length ≤ _
      omega
    exact (happends.emits _).mono (fun _ h => ⟨hshort, h⟩) id
  · exact emits_of_ne_ok (writeBytesOnlySigned_ne_ok (Int.not_le.mp hshort)) hshort

/-- The bytes of a part whose length is cut to 32 bits. -/
lemma encode_cut : encode ⟨0, cut bytes⟩ =
      bytesOfNat 4 (BitVec.ofNat 32 bytes.length).toNat ++ ([0] ++ cut bytes) := by
  rw [encode, length_cut]
  rfl

lemma writeRegionPart_emits {regionName : List (BitVec 8)} :
    Emits (writeRegionPart regionName)
      (fun b => MessagePart.Short regionName ∧ b = encode ⟨0, cut regionName⟩)
      (MessagePart.Short regionName) := by
  have h := ((writeInt32_appends (BitVec.ofNat 32 regionName.length)).emits
    (MessagePart.Short regionName)).bind (((write_appends 0).emits _).bind
      (writeBytesOnlySigned_emits regionName))
  refine Emits.mono h ?_ id
  rintro _ ⟨_, _, rfl, rfl, _, _, rfl, rfl, hshort, rfl⟩
  exact ⟨hshort, encode_cut.symm⟩

lemma ensureCapacity_emits (h : MessagePart.Short bytes) {good : Prop} :
    Emits (ensureCapacity ((BitVec.ofNat 32 bytes.length).signExtend 64)) (· = []) good := by
  obtain ⟨_, _⟩ := toNat_signExtend_of_nonneg h
  have hsize : ((BitVec.ofNat 32 bytes.length).signExtend 64).toNat < 2 ^ 63 := by omega
  intro _ hs
  obtain ⟨s', hrun, hgrown, -⟩ | ⟨s', hrun, -⟩ := ensureCapacity_cases hs hsize
  · exact of_run hrun hgrown rfl
  · rw [EmitsAt, hrun]
    exact fun _ => rfl

lemma writeStringPart_emits (ctx : MessageContext) (str : List (BitVec 8)) :
    Emits (writeStringPart ctx.codecvt str)
      (fun b => (string str).Accepted ctx ∧ b = (string str).emitted ctx)
      ((string str).Accepted ctx) := by
  unfold writeStringPart
  by_cases hstr : str = []
  · rw [hstr]
    exact ((writeInt16_appends 0).emits _).mono (fun _ h => ⟨fun hne => absurd rfl hne, h⟩) id
  · rw [if_pos hstr]
    have hemitted : (string str).emitted ctx = encode
        ⟨0, cut (javaModifiedUtf8 ((units ctx str).getD []))⟩ := by
      cases str with
      | nil => exact absurd rfl hstr
      | cons => rfl
    rw [hemitted]
    cases hunits : toUtf16 ctx.codecvt .char (str.map BitVec.toNat) with
    | none =>
      refine emits_throw fun haccepted => ?_
      obtain ⟨us, hus, -⟩ := haccepted hstr
      rw [units, hunits] at hus
      cases hus
    | some us =>
      have hus : units ctx str = some us := hunits
      have haccepted : MessagePart.Short (javaModifiedUtf8 us) ↔ (string str).Accepted ctx := by
        refine ⟨fun h _ => ⟨us, hus, h⟩, fun h => ?_⟩
        obtain ⟨_, hus', hshort⟩ := h hstr
        rw [hus] at hus'
        cases hus'
        exact hshort
      rw [hus]
      by_cases hshort : MessagePart.Short (javaModifiedUtf8 us)
      · have h := ((writeInt32_appends (BitVec.ofNat 32 (javaModifiedUtf8 us).length)).emits
          (MessagePart.Short (javaModifiedUtf8 us))).bind ((ensureCapacity_emits hshort).bind
            (((write_appends 0).emits _).bind (writeBytesOnlySigned_emits (javaModifiedUtf8 us))))
        refine Emits.mono h ?_ haccepted.mpr
        rintro _ ⟨_, _, rfl, rfl, _, _, rfl, rfl, _, _, rfl, rfl, -, rfl⟩
        exact ⟨haccepted.mp hshort, encode_cut.symm⟩
      · refine emits_of_ne_ok (fun s s' hrun => ?_) (mt haccepted.mpr hshort)
        obtain ⟨-, _, -, hrun⟩ := exists_of_run_bind hrun
        obtain ⟨-, _, -, hrun⟩ := exists_of_run_bind hrun
        obtain ⟨-, s₃, -, hrun⟩ := exists_of_run_bind hrun
        exact writeBytesOnlySigned_ne_ok (Int.not_le.mp hshort) s₃ s' hrun

end Strings

/-! ## Objects -/

variable {content : WriteM Unit} {flag : BitVec 8}

section Objects

variable {codecvt : Codecvt}

/-- The loop moves the bytes down, each once. -/
lemma copyLoop_eq (memory : ℕ → BitVec 8) {cursor start : ℕ} (h : cursor < start) (n i : ℕ) :
    copyLoop memory cursor start n i =
      if cursor ≤ i ∧ i < cursor + n then memory (i - cursor + start) else memory i := by
  induction n generalizing i with
  | zero =>
    rw [if_neg (by omega)]
    rfl
  | succ n ih =>
    rw [copyLoop]
    by_cases hi : i = cursor + n
    · rw [hi, Function.update_self, ih, if_neg (by omega), if_pos (by omega)]
      congr 1
      omega
    · rw [Function.update_of_ne hi, ih]
      by_cases hin : cursor ≤ i ∧ i < cursor + n
      · rw [if_pos hin, if_pos (by omega)]
      · rw [if_neg hin, if_neg (by omega)]

/-- The first bytes of what was appended go, and those behind them move up. -/
lemma dropHead_run {s s₁ : DataOutput} {all : List (BitVec 8)} (hgrown : Grown s s₁ all)
    {cut : BitVec 64} (hpos : 0 < cut.toNat) (hcut : cut.toNat ≤ all.length) (n : ℕ) :
    ∃ s₂ bytes, (dropHead s.offset.toNat cut n).run s₁ = .ok () s₂ ∧ Grown s s₂ bytes ∧
      bytes.length = all.length - cut.toNat ∧
      (n = all.length - cut.toNat → bytes = all.drop cut.toNat) := by
  have hle := hgrown.sound.offset_le
  have hlt := hgrown.sound.size_lt
  have hoffset := hgrown.offset_eq
  obtain ⟨s₂, hs₂⟩ : ∃ s₂ : DataOutput, s₂ = { s₁ with
      memory := copyLoop s₁.memory s.offset.toNat (s.offset.toNat + cut.toNat) n
      offset := s₁.offset - cut } := ⟨_, rfl⟩
  have hoffset₂ : s₂.offset.toNat = s.offset.toNat + (all.length - cut.toNat) := by
    rw [hs₂, toNat_sub]
    omega
  have hmem : ∀ i, s₂.memory i =
      copyLoop s₁.memory s.offset.toNat (s.offset.toNat + cut.toNat) n i := by
    intro i
    rw [hs₂]
  refine ⟨s₂, (range (all.length - cut.toNat)).map fun k => s₂.memory (s.offset.toNat + k),
    by rw [hs₂]; rfl, ⟨⟨?_, ?_, ?_, ?_⟩, ?_, ?_, ?_⟩, by simp, fun hn => ?_⟩
  · rw [hs₂]
    exact hgrown.sound.allocated
  · rw [hs₂]
    exact hgrown.sound.low_le
  · rw [hs₂]
    exact hlt
  · rw [hoffset₂, hs₂]
    dsimp only
    omega
  · rw [hs₂]
    exact hgrown.allocator_eq
  · rw [hs₂]
    exact hgrown.size_le
  · -- nothing before the appended bytes is touched
    rw [written, hoffset₂, range_add, map_append, map_map]
    congr 1
    apply ext_getElem?
    intro i
    by_cases hi : i < s.offset.toNat
    · have hwritten := congrArg (fun l => l[i]?) hgrown.written_eq
      rw [written_getElem? (by omega), getElem?_append_left (by rw [length_written]; omega)]
        at hwritten
      rw [← hwritten, getElem?_map, getElem?_range hi, Option.map_some, hmem,
        copyLoop_eq _ (by omega), if_neg (by omega)]
    · rw [List.getElem?_eq_none (by simp; omega), getElem?_eq_none (by rw [length_written]; omega)]
  · apply ext_getElem?
    intro k
    rw [getElem?_drop]
    by_cases hk : k < all.length - cut.toNat
    · have hget : all[cut.toNat + k]? = some all[cut.toNat + k] := getElem?_eq_getElem (by omega)
      have hmoved := hgrown.memory_eq hget
      rw [getElem?_map, getElem?_range hk, Option.map_some, hget, hmem,
        copyLoop_eq _ (by omega), if_pos (by omega), ← hmoved]
      congr 2
      omega
    · rw [List.getElem?_eq_none (by simp; omega), List.getElem?_eq_none (by omega)]

/-- The number of bytes before an array that is not too long, and where its length is found. -/
lemma arrayLenBytes_cases {n : ℕ} (hn : n < 2 ^ 31) :
    (n ≤ 252 ∧ arrayLenBytes (BitVec.ofNat 32 n) = [BitVec.ofNat 8 n]) ∨
    (252 < n ∧ n ≤ 0xFFFF ∧ arrayLenBytes (BitVec.ofNat 32 n) = 0xFE :: bytesOfNat 2 n) ∨
    (0xFFFF < n ∧ arrayLenBytes (BitVec.ofNat 32 n) = 0xFD :: bytesOfNat 4 n) := by
  have hint := (toInt_ofNat_eq_iff n).mpr hn
  unfold arrayLenBytes
  rw [if_neg (by omega)]
  by_cases h252 : n ≤ 252
  · refine .inl ⟨h252, ?_⟩
    rw [if_pos (by omega), setWidth_ofNat_of_le (by decide)]
  · rw [if_neg (by omega)]
    by_cases hshort : n ≤ 0xFFFF
    · refine .inr (.inl ⟨by omega, hshort, ?_⟩)
      rw [if_pos (by omega), setWidth_ofNat_of_le (by decide), toNat_ofNat, mod_eq_of_lt (by omega)]
      rfl
    · refine .inr (.inr ⟨by omega, ?_⟩)
      rw [if_neg (by omega), toNat_ofNat, mod_eq_of_lt (by omega)]
      rfl

lemma arrayLenBytes_ne_nil (len : BitVec 32) : 1 ≤ (arrayLenBytes len).length := by
  unfold arrayLenBytes
  split_ifs <;> simp

lemma writeBytesOnly_emits (hne : (bytes value).isEmptyBytes = false) (good : Prop) :
    Emits (writeBytesOnly (.bytes value))
      (fun b => (value.length < 2 ^ 31 → b = value) ∧ value.length ≤ b.length + 4) good := by
  intro s hs
  refine get_bind (bind (writeObject_appends.emits _) (Grown.refl hs) ?_)
  rintro s₁ _ rfl hgrown -
  refine get_bind ?_
  have hlength : (bytes value).objectBytes.length =
      1 + ((arrayLenBytes (BitVec.ofNat 32 value.length)).length + value.length) := by
    rw [objectBytes, length_cons, length_append, add_comm]
  -- the array moves to where its type and length were
  have hmove : ∀ {cut : BitVec 64} {n : ℕ}, 0 < cut.toNat → cut.toNat ≤ 6 →
      cut.toNat ≤ (bytes value).objectBytes.length →
      (value.length < 2 ^ 31 →
        n = value.length ∧ (bytes value).objectBytes.drop cut.toNat = value) →
      EmitsAt s s₁ (dropHead s.offset.toNat cut n)
        (fun b => (value.length < 2 ^ 31 → b = value) ∧ value.length ≤ b.length + 4) good := by
    intro cut n hpos hcut hle hvalue
    obtain ⟨s₂, bytes, hrun, hgrown₂, hbytes, hdrop⟩ := dropHead_run hgrown hpos hle n
    have hmin := arrayLenBytes_ne_nil (BitVec.ofNat 32 value.length)
    refine of_run hrun hgrown₂ ⟨fun hlt => ?_, by omega⟩
    obtain ⟨hn, htail⟩ := hvalue hlt
    rw [hdrop (by rw [hn, ← length_drop, htail]), htail]
  have hbyte : ∀ (k : ℕ) {b : BitVec 8}, (bytes value).objectBytes[k]? = some b →
      s₁.memory (s.offset.toNat + k) = b := fun k _ h => hgrown.memory_eq h
  dsimp only
  by_cases hlt : value.length < 2 ^ 31
  · have hpos : 0 < value.length := by
      rw [isEmptyBytes, beq_eq_false_iff_ne] at hne
      exact pos_of_ne_zero fun hzero => hne (by rw [hzero]; rfl)
    obtain ⟨hle, hbytes⟩ | ⟨hgt, hle, hbytes⟩ | ⟨hgt, hbytes⟩ := arrayLenBytes_cases hlt
    · have hall : (bytes value).objectBytes = 46 :: BitVec.ofNat 8 value.length :: value := by
        rw [objectBytes, hbytes]
        rfl
      have hnat : (BitVec.ofNat 8 value.length).toNat = value.length := by
        exact mod_eq_of_lt (by omega)
      rw [hbyte 1 (by rw [hall]; rfl), if_neg, if_neg (by omega), hnat]
      · exact hmove (by decide) (by decide) (by rw [hall]; exact le_add_left _ _)
          fun _ => ⟨rfl, by rw [hall]; rfl⟩
      · intro hcode
        rw [hcode] at hnat
        change 255 = value.length at hnat
        omega
    · obtain ⟨b₀, b₁, hpair⟩ : ∃ b₀ b₁, bytesOfNat 2 value.length = [b₀, b₁] := ⟨_, _, rfl⟩
      have hall : (bytes value).objectBytes = 46 :: 0xFE :: b₀ :: b₁ :: value := by
        rw [objectBytes, hbytes, hpair]
        rfl
      have hnat : natOfBytes [b₀, b₁] = value.length := by
        rw [← hpair, natOfBytes_bytesOfNat (by omega)]
      rw [hbyte 1 (by rw [hall]; rfl), hbyte 2 (by rw [hall]; rfl), hbyte 3 (by rw [hall]; rfl),
        hnat]
      exact hmove (by decide) (by decide) (by rw [hall]; exact le_add_left _ _)
        fun _ => ⟨rfl, by rw [hall]; rfl⟩
    · obtain ⟨b₀, b₁, b₂, b₃, hquad⟩ : ∃ b₀ b₁ b₂ b₃,
          bytesOfNat 4 value.length = [b₀, b₁, b₂, b₃] := ⟨_, _, _, _, rfl⟩
      have hall : (bytes value).objectBytes = 46 :: 0xFD :: b₀ :: b₁ :: b₂ :: b₃ :: value := by
        rw [objectBytes, hbytes, hquad]
        rfl
      have hnat : natOfBytes [b₀, b₁, b₂, b₃] = value.length := by
        rw [← hquad, natOfBytes_bytesOfNat (by omega)]
      have hint : (BitVec.ofNat 32 value.length).toInt.toNat = value.length := by
        rw [(toInt_ofNat_eq_iff _).mpr hlt, Int.toNat_natCast]
      rw [hbyte 1 (by rw [hall]; rfl), hbyte 2 (by rw [hall]; rfl), hbyte 3 (by rw [hall]; rfl),
        hbyte 4 (by rw [hall]; rfl), hbyte 5 (by rw [hall]; rfl), hnat, hint]
      exact hmove (by decide) (by decide) (by rw [hall]; exact le_add_left _ _)
        fun _ => ⟨rfl, by rw [hall]; rfl⟩
  · -- whatever is read as a length, not more than six bytes go
    have hlong : 6 ≤ (bytes value).objectBytes.length := by omega
    have hmove' : ∀ {cut : BitVec 64} {n : ℕ}, 0 < cut.toNat → cut.toNat ≤ 6 →
        EmitsAt s s₁ (dropHead s.offset.toNat cut n)
          (fun b => (value.length < 2 ^ 31 → b = value) ∧ value.length ≤ b.length + 4) good :=
      fun hpos hcut => hmove hpos hcut (hcut.trans hlong) fun h => absurd h hlt
    by_cases hff : s₁.memory (s.offset.toNat + 1) = 0xFF
    · rw [if_pos hff]
      obtain ⟨_, hrun, hgrown₂⟩ := rewindCursor_run hgrown (n := 2) (by omega)
      refine of_run hrun hgrown₂ ⟨fun h => absurd h hlt, ?_⟩
      rw [length_take]
      omega
    · rw [if_neg hff]
      split
      · split
        · exact hmove' (by decide) (by decide)
        · exact hmove' (by decide) (by decide)
      · exact hmove' (by decide) (by decide)

/-- The length that is filled in is the one of the content. -/
lemma writeSized_emits {P : List (BitVec 8) → Prop} {good : Prop} (h : Emits content P good) :
    Emits (writeSized flag content) (fun bytes => ∃ b, P b ∧ bytes = encode ⟨flag, b⟩)
      good := by
  intro s hs
  refine bind ((writeInt32_appends 0).emits _) (Grown.refl hs) ?_
  rintro s₁ _ rfl - hgrown₁
  refine bind ((write_appends flag).emits _) hgrown₁ ?_
  rintro s₂ _ rfl - hgrown₂
  refine get_bind (bind h hgrown₂ ?_)
  intro s₃ b hb hcontent hgrown₃
  refine get_bind ?_
  have hoffset₂ := hgrown₂.offset_eq
  have hoffset₃ := hcontent.offset_eq
  simp only [nil_append, length_append, length_bytesOfNat, length_singleton] at hoffset₂
  have hsize : (s₃.offset - s₂.offset).toNat = b.length := by
    rw [toNat_sub]
    omega
  have hback : (s₃.offset - s₂.offset + 1 + 4).toNat = s₃.offset.toNat - s.offset.toNat := by
    rw [toNat_add, toNat_add, hsize]
    change ((b.length + 1) % 2 ^ 64 + 4) % 2 ^ 64 = _
    omega
  have hahead : (s₃.offset - s₂.offset + 1).toNat = s₃.offset.toNat - s.offset.toNat - 4 := by
    rw [toNat_add, hsize]
    change (b.length + 1) % 2 ^ 64 = _
    omega
  obtain ⟨s₄, hrun, hsound, hallocator, hsize₄, hwritten⟩ := run_patch hgrown₃.sound
    (show s.offset.toNat + 4 ≤ s₃.offset.toNat by omega) hback hahead
  refine of_run hrun (show Grown s s₄ (encode ⟨flag, b⟩) from ⟨hsound, ?_, ?_, ?_⟩) ⟨b, hb, rfl⟩
  · rw [hallocator, hgrown₃.allocator_eq]
  · rw [hsize₄]
    exact hgrown₃.size_le
  · have hmod : bytesOfNat 4 ((s₃.offset - s₂.offset).setWidth 32).toNat =
        bytesOfNat 4 b.length := by
      rw [toNat_setWidth, hsize]
      exact bytesOfNat_mod
    have hdrop : (s.written ++ ([] ++ bytesOfNat 4 (0 : BitVec 32).toNat ++ [flag] ++ b)).drop
        (s.offset.toNat + 4) = flag :: b := by
      rw [List.nil_append, List.append_assoc, ← List.append_assoc,
        drop_left' (by rw [length_append, length_written, length_bytesOfNat])]
      rfl
    rw [hwritten, hgrown₃.written_eq, hmod, take_left' (length_written s), hdrop, List.append_assoc]
    rfl

/-- The name of the class of the keys. -/
lemma writeString_appends :
    Appends (writeString codecvt .char ("java.lang.Object".toList.map Char.toNat))
      (87 :: asciiForm 2 0xFFFF ("java.lang.Object".toList.map Char.toNat)) :=
  (write_appends 87).bind writeAscii_appends

lemma writeObjects_appends (keys : List Serializable) :
    Appends (keys.forM writeObject) (keys.flatMap objectBytes) := by
  induction keys with
  | nil => exact Appends.pure
  | cons _ _ ih => exact writeObject_appends.bind ih

lemma writeKeys_appends (keys : List Serializable) :
    Appends (writeKeys codecvt keys) (keyBytes keys) :=
  (write_appends 52).bind (writeArrayLen_appends.bind ((write_appends 43).bind
    (writeString_appends.bind (writeObjects_appends keys))))

/-- A pointer that is not one to an array of bytes. -/
lemma writeSerialized_emits (se : Serializable) {callToData : Bool} :
    Emits (if callToData = true then writeSized 1 se.serializeWithoutHeader
        else writeSized 1 se.writeObject)
      (fun b => (callToData = true → se.isNull = false) ∧
        b = encode ⟨1, if callToData then se.dataBytes else se.objectBytes⟩)
      (callToData = true → se.isNull = false) := by
  cases callToData with
  | true =>
    refine (writeSized_emits se.serializeWithoutHeader_emits).mono ?_ fun h => h rfl
    rintro _ ⟨_, ⟨hnull, rfl⟩, rfl⟩
    exact ⟨fun _ => hnull, rfl⟩
  | false =>
    refine (writeSized_emits (se.writeObject_appends.emits _)).mono ?_ id
    rintro _ ⟨_, rfl, rfl⟩
    exact ⟨nofun, rfl⟩

/-- `writeObjectPart` emits the part of the object, unless that is longer than a message. -/
lemma writeObjectPart_emits (ctx : MessageContext) (se : Serializable) (isDelta callToData : Bool) :
    Emits (writeObjectPart ctx.codecvt se isDelta callToData none)
      (fun b => (object se isDelta callToData).Accepted ctx ∧
        (¬ (object se isDelta callToData).Huge → b = (object se isDelta callToData).emitted ctx) ∧
        ((object se isDelta callToData).Huge → 2 ^ 31 ≤ b.length))
      ((object se isDelta callToData).Accepted ctx) := by
  have hemitted : (object se isDelta callToData).emitted ctx =
    (objectPart se isDelta callToData).encode := rfl
  rw [hemitted]
  unfold writeObjectPart objectPart
  cases hempty : se.isEmptyBytes with
  | true =>
    have hnot : ¬ (object se isDelta callToData).Huge := by
      intro hhuge
      unfold MessagePart.Huge at hhuge
      split at hhuge
      · rename_i heq
        cases heq
        rw [hempty] at hhuge
        cases hhuge.1
      · exact hhuge
    have happends : Appends (do writeInt32 0; DataOutput.write 2)
        (encode ⟨2, []⟩) := (writeInt32_appends 0).bind (write_appends 2)
    refine (happends.emits _).mono
      (fun b hb => ⟨fun h => ?_, fun _ => hb, fun h => absurd h hnot⟩) id
    rw [hempty] at h
    cases h
  | false =>
    cases isDelta with
    | true =>
      refine (writeSized_emits se.toDelta_emits).mono ?_ fun h => (h hempty).1 rfl
      rintro _ ⟨b, hb, rfl⟩
      refine ⟨fun _ => ⟨fun _ => ?_, nofun⟩, fun _ => ?_, fun h => ?_⟩
      · rw [hb]
        rfl
      · rw [hb]
        rfl
      · unfold MessagePart.Huge at h
        split at h
        · rename_i heq
          cases heq
        · exact h.elim
    | false =>
      simp only [Bool.false_eq_true, if_false]
      have haccepted : (callToData = true → se.isNull = false) ↔
          (object se false callToData).Accepted ctx :=
        ⟨fun h _ => ⟨nofun, fun _ => h⟩, fun h => (h hempty).2 rfl⟩
      cases se with
      | bytes value =>
        refine (writeSized_emits (writeBytesOnly_emits hempty _)).mono ?_ id
        rintro _ ⟨b, ⟨hshort, _⟩, rfl⟩
        refine ⟨haccepted.mp fun _ => rfl, fun hnot => ?_, fun hhuge => ?_⟩
        · rw [hshort (Nat.lt_of_not_le fun hle => hnot ⟨hempty, hle⟩)]
        · have hle : 2 ^ 31 ≤ value.length := hhuge.2
          rw [length_encode]
          dsimp only
          omega
      | _ =>
        exact (writeSerialized_emits _).mono
          (fun b hb => ⟨haccepted.mp hb.1, fun _ => hb.2, nofun⟩) haccepted.mpr

end Objects

/-! ## All parts -/

section Parts

variable (ctx : MessageContext)

lemma writeFixed_appends {bytes : List (BitVec 8)} (hlen : len.toNat = bytes.length)
    (h : Appends content bytes) :
    Appends (do writeInt32 len; DataOutput.write flag; content) (encode ⟨flag, bytes⟩) := by
  have happends : Appends (do writeInt32 len; DataOutput.write flag; content)
      (bytesOfNat 4 len.toNat ++ ([flag] ++ bytes)) :=
    (writeInt32_appends len).bind ((write_appends flag).bind h)
  rw [hlen] at happends
  exact happends

/-- Every writer emits the bytes of its part. -/
lemma writePart_emits (part : MessagePart) :
    Emits (writePart ctx part)
      (fun b => part.Accepted ctx ∧ (¬ part.Huge → b = part.emitted ctx) ∧
        (part.Huge → 2 ^ 31 ≤ b.length))
      (part.Accepted ctx) := by
  have hfixed : ∀ {m : WriteM Unit} {part : MessagePart}, part.Accepted ctx → ¬ part.Huge →
      part.isEmptyString = false → Appends m (part.framed ctx).encode →
      Emits m (fun b => part.Accepted ctx ∧ (¬ part.Huge → b = part.emitted ctx) ∧
        (part.Huge → 2 ^ 31 ≤ b.length)) (part.Accepted ctx) := by
    intro _ part haccepted hhuge hempty h
    refine (h.emits _).mono (fun b hb => ⟨haccepted, fun _ => ?_, fun h => absurd h hhuge⟩) id
    rw [hb, emitted, hempty]
    rfl
  cases part with
  | region =>
    exact writeRegionPart_emits.mono (fun b hb => ⟨hb.1, fun _ => hb.2, nofun⟩) id
  | string str =>
    exact (writeStringPart_emits ctx str).mono (fun b hb => ⟨hb.1, fun _ => hb.2, nofun⟩) id
  | int intValue =>
    exact hfixed trivial nofun rfl (writeFixed_appends rfl (writeInt32_appends intValue))
  | byte byteValue =>
    exact hfixed trivial nofun rfl (writeFixed_appends rfl (write_appends byteValue))
  | byteAndTimeOut byteValue =>
    exact hfixed trivial nofun rfl (writeFixed_appends rfl
      ((write_appends byteValue).bind (writeInt32_appends _)))
  | milliseconds =>
    exact hfixed trivial nofun rfl (writeFixed_appends rfl (writeInt32_appends _))
  | interestResultPolicy policy =>
    exact hfixed trivial nofun rfl (writeFixed_appends rfl
      ((write_appends 1).bind ((write_appends 37).bind (write_appends policy))))
  | eventId =>
    exact hfixed trivial nofun rfl (writeFixed_appends rfl
      ((write_appends 3).bind (writeInt64_appends.bind ((write_appends 3).bind
        writeInt64_appends))))
  | object se isDelta callToData => exact writeObjectPart_emits ctx se isDelta callToData
  | keys getAllKeyList =>
    cases getAllKeyList with
    | none =>
      refine (writeSized_emits (writeObject_appends.emits _)).mono ?_ id
      rintro _ ⟨_, rfl, rfl⟩
      exact ⟨trivial, fun _ => rfl, nofun⟩
    | some keys =>
      refine (writeSized_emits ((writeKeys_appends keys).emits _)).mono ?_ id
      rintro _ ⟨_, rfl, rfl⟩
      exact ⟨trivial, fun _ => rfl, nofun⟩

/-- By induction on the parts. -/
lemma writeParts_emits {parts : List MessagePart} :
    Emits (writeParts ctx parts)
      (fun b => (∀ part ∈ parts, part.Accepted ctx) ∧
        ((∀ part ∈ parts, ¬ part.Huge) → b = parts.flatMap (emitted ctx)) ∧
        ((∃ part ∈ parts, part.Huge) → 2 ^ 31 ≤ b.length))
      (∀ part ∈ parts, part.Accepted ctx) := by
  induction parts with
  | nil => exact (Appends.pure.emits _).mono (fun b hb => ⟨nofun, fun _ => hb, nofun⟩) id
  | cons part _ ih =>
    have h := ((writePart_emits ctx part).mono (fun _ => id)
      (fun h => (forall_mem_cons.mp h).1)).bind (ih.mono (fun _ => id)
        (fun h => (forall_mem_cons.mp h).2))
    refine Emits.mono h ?_ id
    rintro _ ⟨_, _, rfl, ⟨haccepted, hplain, hhuge⟩, haccepted', hplain', hhuge'⟩
    refine ⟨forall_mem_cons.mpr ⟨haccepted, haccepted'⟩, fun hnot => ?_, ?_⟩
    · obtain ⟨hnot, hnot'⟩ := forall_mem_cons.mp hnot
      rw [hplain hnot, hplain' hnot', flatMap_cons]
    · rintro ⟨p, hp, hbig⟩
      rw [length_append]
      obtain rfl | hp := mem_cons.mp hp
      · exact (hhuge hbig).trans (le_add_right _ _)
      · exact (hhuge' ⟨p, hp, hbig⟩).trans (le_add_left _ _)

end Parts

end TcrMessage

end GeodeNative
