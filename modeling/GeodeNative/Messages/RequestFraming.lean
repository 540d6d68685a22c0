import GeodeNative.Messages.PartSpec

/-!
# Requests are framed

A request is framed if the length in its header is the one of what follows the header, and what
follows is read as the parts of the request, as many as the header declares, and the security part,
if there is one, with nothing left.

`framed_iff` is the result about every constructor and everything that is done to a request
before it is sent again: it is framed exactly when it is shorter than `2 ^ 31` bytes, no name or
query of a continuous query is empty and a query with parameters has a timeout that is not
negative.
-/

namespace GeodeNative

open List BitVec

open DataOutput FramedPart MessagePart

/-! ## Frames -/

/-- The header of a request and its parts. -/
structure Framed (buffer : List (BitVec 8)) (parts : List FramedPart)
    (securityPart : Option FramedPart) : Prop where
  header_le : 17 ≤ buffer.length
  length_eq : signedOfBytes ((buffer.drop 4).take 4) = (buffer.length - 17 : ℕ)
  parts_eq : takeParts (natOfBytes ((buffer.drop 8).take 4) + securityPart.toList.length)
    (buffer.drop 17) = some (parts ++ securityPart.toList)

variable {ctx : MessageContext} {m : TcrMessage}

namespace TcrMessage

variable {rest body : List (BitVec 8)} {securityPart : Option FramedPart} {len : ℕ}

def headerBytes (msgType numOfParts txId : BitVec 32) (len : ℕ) (earlyAck : BitVec 8) :
    List (BitVec 8) :=
  bytesOfNat 4 msgType.toNat ++ (bytesOfNat 4 len ++ (bytesOfNat 4 numOfParts.toNat ++
    (bytesOfNat 4 txId.toNat ++ [earlyAck])))

section Header

variable {msgType numOfParts txId : BitVec 32} {earlyAck : BitVec 8}

@[simp] lemma length_headerBytes :
    (headerBytes msgType numOfParts txId len earlyAck).length = 17 := by
  simp [headerBytes]

lemma headerBytes_append : headerBytes msgType numOfParts txId len earlyAck ++ rest =
      bytesOfNat 4 msgType.toNat ++ (bytesOfNat 4 len ++ (bytesOfNat 4 numOfParts.toNat ++
        (bytesOfNat 4 txId.toNat ++ earlyAck :: rest))) := by
  simp [headerBytes]

lemma drop_four_headerBytes : (headerBytes msgType numOfParts txId len earlyAck ++ rest).drop 4 =
      bytesOfNat 4 len ++ (bytesOfNat 4 numOfParts.toNat ++
        (bytesOfNat 4 txId.toNat ++ earlyAck :: rest)) := by
  rw [headerBytes_append, drop_left' length_bytesOfNat]

lemma drop_eight_headerBytes : (headerBytes msgType numOfParts txId len earlyAck ++ rest).drop 8 =
      bytesOfNat 4 numOfParts.toNat ++ (bytesOfNat 4 txId.toNat ++ earlyAck :: rest) := by
  have hdrop : ∀ l : List (BitVec 8), l.drop 8 = (l.drop 4).drop 4 := fun l => by
    rw [drop_drop]
  rw [hdrop, drop_four_headerBytes, drop_left' length_bytesOfNat]

/-- What it takes for a header and what follows it to be framed. -/
lemma framed_headerBytes_iff {parts : List FramedPart}
    (hrest : rest = body ++ encodeAll securityPart.toList) :
    Framed (headerBytes msgType numOfParts txId rest.length earlyAck ++ rest) parts securityPart ↔
      rest.length < 2 ^ 31 ∧ parts.length = numOfParts.toNat ∧ body = encodeAll parts := by
  have hlength : signedOfBytes
      (((headerBytes msgType numOfParts txId rest.length earlyAck ++ rest).drop 4).take 4) =
        (BitVec.ofNat 32 rest.length).toInt := by
    rw [drop_four_headerBytes, take_left' length_bytesOfNat, signedOfBytes_bytesOfNat]
  have hnum : natOfBytes
      (((headerBytes msgType numOfParts txId rest.length earlyAck ++ rest).drop 8).take 4) =
        numOfParts.toNat := by
    rw [drop_eight_headerBytes, take_left' length_bytesOfNat, natOfBytes_bytesOfNat]
    exact numOfParts.isLt
  have hdrop : (headerBytes msgType numOfParts txId rest.length earlyAck ++ rest).drop 17 = rest :=
    drop_left' length_headerBytes
  have htotal : (headerBytes msgType numOfParts txId rest.length earlyAck ++ rest).length - 17 =
      rest.length := by
    rw [List.length_append, length_headerBytes, Nat.add_sub_cancel_left]
  constructor
  · rintro ⟨-, hlen, hparts⟩
    rw [hlength, htotal, toInt_ofNat_eq_iff] at hlen
    rw [hnum, hdrop, takeParts_eq_some_iff, length_append, Nat.add_right_cancel_iff, hrest,
      encodeAll_append, append_cancel_right_eq] at hparts
    exact ⟨hlen, hparts.1, hparts.2.1⟩
  · rintro ⟨hlen, hcount, hbody⟩
    refine ⟨by rw [length_append, length_headerBytes]; omega, ?_, ?_⟩
    · rw [hlength, htotal, toInt_ofNat_eq_iff]
      exact hlen
    · rw [hnum, hdrop, takeParts_eq_some_iff, length_append, Nat.add_right_cancel_iff, hrest,
        encodeAll_append, append_cancel_right_eq]
      refine ⟨hcount, hbody, fun part hpart => ?_⟩
      -- no part is longer than the whole
      have hle := length_encode_le hpart
      rw [encodeAll_append, ← hbody, ← hrest, length_encode] at hle
      omega

end Header

/-! ## Building a message -/

section Runs

variable {s s' : DataOutput} {msgType numOfParts txId : BitVec 32} {ack : BitVec 8}

/-- The length is patched into the header at its place. -/
lemma writeMessageLength_run (hs : Sound s)
    (hwritten : s.written = headerBytes msgType numOfParts txId len ack ++ rest) :
    ∃ s', writeMessageLength.run s = .ok () s' ∧ Sound s' ∧
      s'.written = headerBytes msgType numOfParts txId rest.length ack ++ rest := by
  have hoffset : s.offset.toNat = 17 + rest.length := by
    rw [← length_written, hwritten, length_append, length_headerBytes]
  have hback : (s.offset - 4).toNat = s.offset.toNat - 4 := by
    change (2 ^ 64 - 4 + s.offset.toNat) % 2 ^ 64 = _
    omega
  have hahead : (s.offset - 8).toNat = s.offset.toNat - 4 - 4 := by
    change (2 ^ 64 - 8 + s.offset.toNat) % 2 ^ 64 = _
    omega
  have hlen : bytesOfNat 4 ((s.offset - BitVec.ofNat 64 headerLength).setWidth 32).toNat =
      bytesOfNat 4 rest.length := by
    have hsub : (s.offset - BitVec.ofNat 64 headerLength).toNat = rest.length := by
      change (2 ^ 64 - 17 + s.offset.toNat) % 2 ^ 64 = _
      omega
    rw [toNat_setWidth, hsub]
    exact bytesOfNat_mod
  obtain ⟨s', hrun, hsound, -, -, hpatched⟩ := run_patch hs
    (show 4 + 4 ≤ s.offset.toNat by omega) hback hahead
  refine ⟨s', by rw [writeMessageLength, run_get_bind]; exact hrun, hsound, ?_⟩
  rw [hpatched, hlen, hwritten, drop_eight_headerBytes, headerBytes_append, headerBytes_append,
    List.take_left' length_bytesOfNat, List.append_assoc]

/-- The header begins with a length of zero. -/
lemma writeHeader_appends (ctx : MessageContext) (m : TcrMessage) :
    Appends (writeHeader ctx m) (headerBytes m.msgType.value (BitVec.ofNat 32 m.numOfParts)
      (ctx.transactionId.getD (-1)) 0 (earlyAck ctx m)) :=
  (writeInt32_appends _).bind ((writeInt32_appends 0).bind ((writeInt32_appends _).bind
    ((writeInt32_appends _).bind (write_appends _))))

/-- What the bytes of the parts of a message are. -/
structure Body (ctx : MessageContext) (m : TcrMessage) (body : List (BitVec 8)) : Prop where
  accepted : ∀ part ∈ m.parts, part.Accepted ctx
  plain : (∀ part ∈ m.parts, ¬ part.Huge) → body = m.parts.flatMap (MessagePart.emitted ctx)
  huge : (∃ part ∈ m.parts, part.Huge) → 2 ^ 31 ≤ body.length

/-- A message with its security part, if it has one. -/
structure Layout (ctx : MessageContext) (m : TcrMessage) (s : DataOutput) (header : SecurityHeader)
    (body : List (BitVec 8)) (securityPart : Option FramedPart) : Prop where
  sound : Sound s
  spec : Body ctx m body
  written_eq : ∃ ack, s.written =
    headerBytes m.msgType.value (BitVec.ofNat 32 m.numOfParts) (ctx.transactionId.getD (-1))
      (body ++ FramedPart.encodeAll securityPart.toList).length ack ++
        (body ++ FramedPart.encodeAll securityPart.toList)
  added_eq : header.isSecurityHeaderAdded = securityPart.isSome
  length_eq : ∀ part ∈ securityPart, header.securityHeaderLength.toNat = part.encode.length ∧
    part.encode.length < 2 ^ 31

/-- The constructor of a message leaves a header and the parts. -/
lemma write_layout (hs : Sound s) (hoffset : s.offset = 0)
    (hrun : (m.write ctx).run s = .ok () s') : ∃ body, Layout ctx m s' {} body none := by
  have hstart : s.written = [] := by
    rw [written, hoffset]
    rfl
  obtain ⟨_, _, hrun₁, hrun⟩ := exists_of_run_bind hrun
  obtain ⟨_, _, hrun₂, hrun⟩ := exists_of_run_bind hrun
  obtain ⟨_, hgrown₁, rfl⟩ := ((writeHeader_appends ctx m).emits True).exists_of_run hs hrun₁
  obtain ⟨body, hgrown₂, hbody⟩ := (writeParts_emits ctx).exists_of_run hgrown₁.sound hrun₂
  have hwritten := hgrown₂.written_eq
  rw [hgrown₁.written_eq, hstart] at hwritten
  obtain ⟨_, hrun₃, hsound, hlength⟩ := writeMessageLength_run hgrown₂.sound hwritten
  rw [hrun₃] at hrun
  cases hrun
  refine ⟨body, hsound, ⟨hbody.1, hbody.2.1, hbody.2.2⟩, ⟨earlyAck ctx m, ?_⟩, rfl, by simp⟩
  rw [hlength]
  simp

/-! ## Sending a message -/

variable {header header' : SecurityHeader}

lemma headerBytes_set (ack' : BitVec 8) :
    (headerBytes msgType numOfParts txId len ack ++ rest).set 16 ack' =
      headerBytes msgType numOfParts txId len ack' ++ rest := rfl

/-- The retry bit belongs to the header. -/
lemma updateHeaderForRetry_layout (h : Layout ctx m s header body securityPart)
    (hrun : updateHeaderForRetry.run s = .ok () s') : Layout ctx m s' header body securityPart := by
  obtain ⟨_, hwritten⟩ := h.written_eq
  have hlow := h.sound.low_le
  have hoffset : 16 < s.offset.toNat := by
    rw [← length_written, hwritten, length_append, length_headerBytes]
    omega
  have hin : s.allocated = true ∧ (16 : BitVec 64) < s.size := ⟨h.sound.allocated, by
    change 16 < s.size.toNat
    omega⟩
  rw [updateHeaderForRetry, run_get_bind, updateValueAtPos, run_get_bind, if_pos hin] at hrun
  cases hrun
  refine ⟨⟨h.sound.allocated, hlow, h.sound.size_lt, h.sound.offset_le⟩, h.spec,
    ⟨s.memory 16 ||| 0x4, ?_⟩, h.added_eq, h.length_eq⟩
  rw [← headerBytes_set, ← hwritten]
  exact written_update s hoffset

/-- The security part of an earlier attempt is dropped. -/
lemma dropSecurityPart_layout (h : Layout ctx m s header body securityPart)
    (hrun : (dropSecurityPart header).run s = .ok () s') : Layout ctx m s' {} body none := by
  obtain ⟨ack, hwritten⟩ := h.written_eq
  rw [dropSecurityPart, h.added_eq] at hrun
  cases securityPart with
  | none =>
    cases hrun
    exact ⟨h.sound, h.spec, ⟨ack, hwritten⟩, rfl, nofun⟩
  | some part =>
    obtain ⟨_, _⟩ := h.length_eq part rfl
    have hencode : encodeAll (some part).toList = part.encode := by
      simp [encodeAll]
    rw [hencode, ← List.append_assoc] at hwritten
    have hoffset : s.offset.toNat = 17 + body.length + part.encode.length := by
      rw [← length_written, hwritten, length_append, length_append, length_headerBytes]
    have hback : (header.securityHeaderLength.signExtend 64).toNat =
        s.offset.toNat - (17 + body.length) := by
      have hnonneg : 0 ≤ header.securityHeaderLength.toInt := by
        rw [toInt_eq_toNat_cond]
        split <;> omega
      rw [(toNat_signExtend_of_nonneg hnonneg).1]
      omega
    obtain ⟨hrewind, hsound, -, htake⟩ := rewindCursor_written h.sound (by omega) hback
    rw [if_pos (show (some part).isSome = true from rfl), run_bind_of_ok hrewind] at hrun
    rw [hwritten, take_left' (by rw [length_append, length_headerBytes])] at htake
    obtain ⟨_, hrun₂, hsound₂, hwritten₂⟩ := writeMessageLength_run hsound htake
    rw [hrun₂] at hrun
    cases hrun
    refine ⟨hsound₂, h.spec, ⟨ack, ?_⟩, rfl, nofun⟩
    rw [hwritten₂]
    simp

/-- The security part for some ids. -/
def idPart (ids : List (BitVec 64)) : FramedPart :=
  ⟨0, ids.flatMap fun id => bytesOfNat 8 id.toNat⟩

lemma length_idPart (ids : List (BitVec 64)) : (idPart ids).payload.length = 8 * ids.length := by
  induction ids with
  | nil => rfl
  | cons id ids =>
    have hcons : (idPart (id :: ids)).payload = bytesOfNat 8 id.toNat ++ (idPart ids).payload := rfl
    rw [hcons, length_append, length_bytesOfNat, length_cons]
    omega

/-- A new security part takes the place of the old one. -/
lemma addSecurityPart_layout {ids : List (BitVec 64)} (hids : 0 < ids.length)
    (hlt : ids.length < 2 ^ 20) (h : Layout ctx m s header body securityPart)
    (hrun : (addSecurityPart ctx.codecvt ids header).run s = .ok header' s') :
    Layout ctx m s' header' body (some (idPart ids)) := by
  obtain ⟨_, _, hrun₁, hrun⟩ := exists_of_run_bind hrun
  obtain ⟨_, _, hrun₂, hrun⟩ := exists_of_run_bind hrun
  obtain ⟨_, _, hrun₃, hrun⟩ := exists_of_run_bind hrun
  have hdropped := dropSecurityPart_layout h hrun₁
  obtain ⟨ack, hwritten⟩ := hdropped.written_eq
  have hlength := length_idPart ids
  have hempty : (Serializable.bytes (idPart ids).payload).isEmptyBytes = false := by
    rw [Serializable.isEmptyBytes, beq_eq_false_iff_ne]
    intro hzero
    have hnat := congrArg BitVec.toNat hzero
    rw [toNat_ofNat, hlength, Nat.mod_eq_of_lt (by omega)] at hnat
    change 8 * ids.length = 0 at hnat
    omega
  obtain ⟨bytes, hgrown, -, hplain, -⟩ :=
    (writeObjectPart_emits ctx (.bytes (idPart ids).payload) false false).exists_of_run
      hdropped.sound hrun₂
  have hbytes : bytes = (idPart ids).encode := by
    rw [hplain fun hhuge => by have := hhuge.2; omega, emitted, framed,
      objectPart, hempty]
    rfl
  have hwritten₂ := hgrown.written_eq
  rw [hwritten, hbytes] at hwritten₂
  obtain ⟨_, hrun₄, hsound, hlen⟩ := writeMessageLength_run hgrown.sound hwritten₂
  rw [hrun₄] at hrun₃
  cases hrun₃
  cases hrun
  refine ⟨hsound, h.spec, ⟨ack, ?_⟩, rfl, ?_⟩
  · rw [hlen]
    simp [encodeAll]
  · rintro _ ⟨⟩
    rw [length_encode]
    refine ⟨?_, by omega⟩
    change (4 + 1 + BitVec.ofNat 32 (idPart ids).payload.length).toNat = _
    rw [hlength]
    change (5 + 8 * ids.length % 2 ^ 32) % 2 ^ 32 = _
    omega

def securityPartAfter (securityPart : Option FramedPart) : SendAction → Option FramedPart
  | .addSecurityPart connectionId uniqueId => some (idPart [connectionId, uniqueId])
  | .addConnectionPart connectionId => some (idPart [connectionId])
  | .updateHeaderForRetry => securityPart

/-- Each action of a sender keeps the layout of the buffer. -/
lemma perform_layout {action : SendAction} (h : Layout ctx m s header body securityPart)
    (hrun : (perform ctx.codecvt header action).run s = .ok header' s') :
    Layout ctx m s' header' body (securityPartAfter securityPart action) := by
  cases action with
  | addSecurityPart | addConnectionPart =>
    exact addSecurityPart_layout (Nat.succ_pos _) (by simp) h hrun
  | updateHeaderForRetry =>
    obtain ⟨_, _, hrun₁, hrun⟩ := exists_of_run_bind hrun
    cases hrun
    exact updateHeaderForRetry_layout h hrun₁

/-- Whatever is done to a message keeps its layout. -/
lemma performAll_layout {actions : List SendAction} (h : Layout ctx m s header body securityPart)
    (hrun : (performAll ctx.codecvt header actions).run s = .ok header' s') :
    Layout ctx m s' header' body (actions.foldl securityPartAfter securityPart) := by
  induction actions generalizing s header securityPart with
  | nil =>
    cases hrun
    exact h
  | cons _ _ ih =>
    obtain ⟨_, _, hrun₁, hrun⟩ := exists_of_run_bind hrun
    exact ih (perform_layout h hrun₁) hrun

end Runs

/-! ## The parts of a message -/

section Parts

variable (ctx : MessageContext) {part : MessagePart}

def framedParts (ctx : MessageContext) (m : TcrMessage) : List FramedPart :=
  m.parts.map (MessagePart.framed ctx)

/-- Only an empty string emits less than its frame. -/
lemma length_emitted_le : (part.emitted ctx).length ≤ (part.framed ctx).encode.length ∧
      (part.isEmptyString = true →
        (part.emitted ctx).length < (part.framed ctx).encode.length) := by
  unfold emitted
  cases hempty : part.isEmptyString with
  | true =>
    exact ⟨by simp, fun _ => by simp⟩
  | false => exact ⟨Nat.le_refl _, nofun⟩

/-- The bytes of the parts fall short of their encodings if a string is empty. -/
lemma flatMap_emitted_eq_iff {parts : List MessagePart} : parts.flatMap (emitted ctx) =
        encodeAll (parts.map (framed ctx)) ↔
      ∀ part ∈ parts, part.isEmptyString = false := by
  constructor
  · intro heq part hpart
    by_contra hempty
    rw [Bool.not_eq_false] at hempty
    obtain ⟨before, after, rfl⟩ := append_of_mem hpart
    have hle : ∀ parts : List MessagePart, (parts.flatMap (emitted ctx)).length ≤
        (encodeAll (parts.map (framed ctx))).length := by
      intro parts
      induction parts with
      | nil => simp
      | cons _ _ ih =>
        rw [flatMap_cons, map_cons, encodeAll_cons, length_append, length_append]
        exact Nat.add_le_add (length_emitted_le ctx).1 ih
    have hlength := congrArg length heq
    rw [flatMap_append, flatMap_cons, map_append, map_cons,
      encodeAll_append, encodeAll_cons] at hlength
    simp only [length_append] at hlength
    have hbefore := hle before
    have hafter := hle after
    have hpart' := (length_emitted_le ctx).2 hempty
    omega
  · intro h
    rw [encodeAll, flatMap_map]
    refine flatMap_congr fun part hpart => ?_
    rw [emitted, h part hpart]
    rfl

/-- A huge part has more bytes than a signed length counts. -/
lemma le_length_of_huge (h : part.Huge) : 2 ^ 31 ≤ (part.framed ctx).encode.length := by
  unfold MessagePart.Huge at h
  split at h
  · rename_i value callToData
    have hframed : (object (.bytes value) false callToData).framed ctx = ⟨0, value⟩ := by
      rw [framed, objectPart, h.1]
      rfl
    rw [hframed, length_encode]
    exact h.2.trans (Nat.le_add_right _ _)
  · exact h.elim

variable {ctx} in
/-- The bytes of the parts are their encodings exactly when no string is empty, as far as the
length of a message goes. -/
lemma Body.eq_iff (h : Body ctx m body) (extra : ℕ) :
    (body.length + extra < 2 ^ 31 ∧ body = encodeAll (framedParts ctx m)) ↔
      (encodeAll (framedParts ctx m)).length + extra < 2 ^ 31 ∧
        ∀ part ∈ m.parts, part.isEmptyString = false := by
  constructor
  · rintro ⟨hlt, heq⟩
    refine ⟨heq ▸ hlt, (flatMap_emitted_eq_iff ctx).mp ?_⟩
    rw [← h.plain fun part hpart hhuge => ?_]
    · exact heq
    · have := h.huge ⟨part, hpart, hhuge⟩
      omega
  · rintro ⟨hlt, hstrings⟩
    have hplain : ∀ part ∈ m.parts, ¬ part.Huge := by
      intro _ hpart hhuge
      have hle := le_length_of_huge ctx hhuge
      have hle' := length_encode_le
        (mem_map_of_mem (f := framed ctx) hpart)
      rw [framedParts] at hlt
      omega
    have heq : body = encodeAll (framedParts ctx m) :=
      (h.plain hplain).trans ((flatMap_emitted_eq_iff ctx).mpr hstrings)
    exact ⟨heq ▸ hlt, heq⟩

end Parts

end TcrMessage

/-! ## The requests -/

namespace Request

variable {failedNodes : Option (ℕ × Serializable)}

open TcrMessage

/-- The arguments for which a constructor declares and writes the same parts. -/
def Regular : Request → Prop
  | queryWithParameters _ _ messageResponsetimeout => 0 ≤ messageResponsetimeout.toInt
  | executeCq cqName queryString _ _ => cqName ≠ [] ∧ queryString ≠ []
  | executeCqWithIr cqName queryString _ _ => cqName ≠ [] ∧ queryString ≠ []
  | _ => True

def noEmptyString (parts : List MessagePart) : Bool :=
  parts.all fun part => !part.isEmptyString

@[simp] lemma noEmptyString_nil : noEmptyString [] = true := rfl

@[simp] lemma noEmptyString_cons (part : MessagePart) (parts : List MessagePart) :
    noEmptyString (part :: parts) = (!part.isEmptyString && noEmptyString parts) := rfl

@[simp] lemma noEmptyString_append (parts parts' : List MessagePart) :
    noEmptyString (parts ++ parts') = (noEmptyString parts && noEmptyString parts') :=
  all_append

@[simp] lemma isEmptyString_object (se : Serializable) : (object se).isEmptyString = false := rfl

@[simp] lemma noEmptyString_map_object (ses : List Serializable) :
    noEmptyString (ses.map object) = true := by
  induction ses with
  | nil => rfl
  | cons _ _ ih => exact ih

@[simp] lemma length_callback (cb : Serializable) : (callback cb).length = callbackCount cb := by
  unfold callback callbackCount
  split <;> rfl

@[simp] lemma noEmptyString_callback (cb : Serializable) : noEmptyString (callback cb) = true := by
  unfold callback
  split <;> rfl

@[simp] lemma length_timeoutPart (timeout : BitVec 64) :
    (timeoutPart timeout).length = timeoutCount timeout := by
  unfold timeoutPart timeoutCount
  split <;> rfl

@[simp] lemma noEmptyString_timeoutPart (timeout : BitVec 64) :
    noEmptyString (timeoutPart timeout) = true := by
  unfold timeoutPart
  split <;> rfl

lemma bucketParts_spec {routing : List Serializable} {parts : List MessagePart}
    (h : bucketParts routing = .ok parts) :
    parts.length = routing.length ∧ noEmptyString parts = true := by
  induction routing generalizing parts with
  | nil =>
    cases h
    exact ⟨rfl, rfl⟩
  | cons _ routing ih =>
    unfold bucketParts at h
    split at h
    · exact absurd ‹_› (cons_ne_nil _ _)
    · rename_i heq
      cases heq
      cases hrest : bucketParts routing with
      | error =>
        rw [hrest] at h
        cases h
      | ok =>
        rw [hrest] at h
        cases h
        obtain ⟨hlength, hstrings⟩ := ih hrest
        exact ⟨congrArg (· + 1) hlength, hstrings⟩
    · cases h

/-- A message declares the parts that are written, and none of them is an empty string. -/
def Counted (m : TcrMessage) : Prop :=
  m.numOfParts = m.parts.length ∧ noEmptyString m.parts = true

lemma entryParts_spec (map : List (Serializable × Serializable)) :
    (entryParts map).length = map.length * 2 ∧ noEmptyString (entryParts map) = true := by
  induction map with
  | nil => exact ⟨rfl, rfl⟩
  | cons entry map ih =>
    have hcons : entryParts (entry :: map) =
      object entry.1 :: object entry.2 :: entryParts map := rfl
    refine ⟨?_, by simpa [hcons] using ih.2⟩
    rw [hcons, length_cons, length_cons, length_cons]
    omega

lemma routingParts_spec {allBuckets : Bool} {routingObj : Option (List Serializable)}
    {parts : List MessagePart} (h : routingParts allBuckets routingObj = .ok parts) :
    parts.length = routingObj.elim 0 length + 1 ∧ noEmptyString parts = true := by
  cases routingObj with
  | none =>
    cases h
    exact ⟨rfl, rfl⟩
  | some routing =>
    cases allBuckets with
    | false =>
      cases h
      simp [isEmptyString]
    | true =>
      unfold routingParts at h
      cases hbuckets : bucketParts routing with
      | error =>
        simp only [hbuckets] at h
        cases h
      | ok =>
        simp only [hbuckets] at h
        cases h
        obtain ⟨hlength, hstrings⟩ := bucketParts_spec hbuckets
        exact ⟨congrArg (· + 1) hlength, hstrings⟩

lemma failedParts_spec :
    (failedParts failedNodes).length = (if failedNodes.isSome then 1 else 0) + 1 ∧
      noEmptyString (failedParts failedNodes) = true := by
  cases failedNodes <;> exact ⟨rfl, rfl⟩

/-- The parts of a function execution around those of its routing. -/
lemma counted_function {msgType : MsgType} {head routing : List MessagePart} {n : ℕ}
    (hhead : head.length = 6) (hstrings : noEmptyString head = true)
    (hlength : routing.length = n + 1) (hrouting : noEmptyString routing = true) :
    Counted {
      msgType
      numOfParts := functionCount n failedNodes
      parts := head ++ routing ++ failedParts failedNodes } := by
  obtain ⟨hfailed, hfailed'⟩ := failedParts_spec
  constructor
  · dsimp only
    rw [functionCount, length_append, length_append, hfailed]
    omega
  · dsimp only
    rw [noEmptyString_append, noEmptyString_append, hstrings, hrouting, hfailed']
    rfl

variable {r : Request}

section

variable (h : r.message = .ok m)

include h

/-- Where the arguments are regular, a message declares the parts that are written. -/
lemma counted_of_regular (hr : r.Regular) : Counted m := by
  cases r
  case queryWithParameters queryString paramList timeout =>
    cases h
    have htimeout : timeoutCount timeout = 1 := if_pos hr
    simp [Counted, isEmptyString]
    omega
  case executeCq cqName queryString state isDurable =>
    cases h
    simpa [Counted, executeCqOp, isEmptyString, Regular] using hr
  case executeCqWithIr cqName queryString state isDurable =>
    cases h
    simpa [Counted, executeCqOp, isEmptyString, Regular] using hr
  case putAll region map timeout cb =>
    cases h
    obtain ⟨hlength, hstrings⟩ := entryParts_spec map
    have hcount : (if cb.isNull then 5 + map.length * 2 else 6 + map.length * 2) =
        5 + callbackCount cb + map.length * 2 := by
      unfold callbackCount
      split <;> omega
    simp [Counted, isEmptyString, hstrings]
    omega
  case removeAll region keys cb =>
    cases h
    simp [Counted, object, isEmptyString, timeoutCount]
    omega
  case executeRegionFunction funcName region args routingObj getResult failedNodes timeout
      reExecute =>
    cases hrouting : routingParts false routingObj with
    | error =>
      simp only [message, hrouting] at h
      cases h
    | ok =>
      simp only [message, hrouting] at h
      cases h
      obtain ⟨hlength, hstrings⟩ := routingParts_spec hrouting
      exact counted_function rfl rfl hlength hstrings
  case executeRegionFunctionSingleHop funcName region args routingObj getResult failedNodes
      allBuckets timeout =>
    cases hrouting : routingParts allBuckets routingObj with
    | error =>
      simp only [message, hrouting] at h
      cases h
    | ok =>
      simp only [message, hrouting] at h
      cases h
      obtain ⟨hlength, hstrings⟩ := routingParts_spec hrouting
      exact counted_function rfl rfl hlength hstrings
  all_goals
    simp only [message] at h
    repeat' split at h
    all_goals cases h
    all_goals
      simp [Counted, object, regionOp, queryOp, dummy, naming, interestFlags,
        isEmptyString] <;> omega

/-- Where they are not, one part is missing or a string is empty. -/
lemma not_counted_of_not_regular
    (hr : ¬ r.Regular) : ¬ Counted m ∧ m.numOfParts ≤ m.parts.length + 1 := by
  cases r
  case queryWithParameters queryString paramList timeout =>
    cases h
    have htimeout : timeoutCount timeout = 0 := if_neg hr
    simp [Counted]
    omega
  case executeCq cqName queryString state isDurable =>
    cases h
    exact ⟨fun hcounted => hr (by
      simpa [Counted, executeCqOp, isEmptyString, Regular] using hcounted),
      by simp [executeCqOp]⟩
  case executeCqWithIr cqName queryString state isDurable =>
    cases h
    exact ⟨fun hcounted => hr (by
      simpa [Counted, executeCqOp, isEmptyString, Regular] using hcounted),
      by simp [executeCqOp]⟩
  all_goals exact absurd trivial hr

/-- The announced count is right for the regular requests. -/
lemma counted_iff : Counted m ↔ r.Regular :=
  ⟨fun hcounted => by_contra fun hr => (not_counted_of_not_regular h hr).1 hcounted,
    counted_of_regular h⟩

lemma numOfParts_le : m.numOfParts ≤ m.parts.length + 1 := by
  by_cases hr : r.Regular
  · exact (counted_of_regular h hr).1.le.trans (Nat.le_succ _)
  · exact (not_counted_of_not_regular h hr).2

end

lemma noEmptyString_eq_true_iff (parts : List MessagePart) :
    noEmptyString parts = true ↔ ∀ part ∈ parts, part.isEmptyString = false := by
  simp [noEmptyString]

/-- The bytes of the parts are those of the parts that are declared exactly when these are the ones
that are written. -/
lemma declares_iff {body : List (BitVec 8)}
    (h : Body ctx m body) (hle : m.numOfParts ≤ m.parts.length + 1) (extra : ℕ) :
    (body.length + extra < 2 ^ 31 ∧
        (m.framedParts ctx).length = (BitVec.ofNat 32 m.numOfParts).toNat ∧
        body = encodeAll (m.framedParts ctx)) ↔
      (encodeAll (m.framedParts ctx)).length + extra < 2 ^ 31 ∧ Counted m := by
  have hlength : (m.framedParts ctx).length = m.parts.length := List.length_map _
  have hmul := length_mul_le (m.framedParts ctx)
  have hmod : (encodeAll (m.framedParts ctx)).length + extra < 2 ^ 31 →
      (BitVec.ofNat 32 m.numOfParts).toNat = m.numOfParts := by
    intro hlt
    exact Nat.mod_eq_of_lt (by omega)
  rw [and_left_comm, h.eq_iff, Counted, noEmptyString_eq_true_iff, and_left_comm]
  refine and_congr_right fun hlt => and_congr_left fun _ => ?_
  rw [hmod hlt, hlength, eq_comm]

/-- The buffer of a request after some actions, if nothing fails. -/
def buffer (ctx : MessageContext) (r : Request) (actions : List SendAction) (s : DataOutput) :
    Option (List (BitVec 8)) :=
  match r.message with
  | .error _ => none
  | .ok m =>
    match (m.send ctx actions).run s with
    | .ok _ s' => some s'.written
    | .error _ _ => none

/-- The parts of a request, none for arguments that are refused. -/
def parts (ctx : MessageContext) (r : Request) : List FramedPart :=
  match r.message with
  | .error _ => []
  | .ok m => m.framedParts ctx

def securityPart (actions : List SendAction) : Option FramedPart :=
  actions.foldl securityPartAfter none

/-- How long what follows the header is. -/
def length (ctx : MessageContext) (r : Request) (actions : List SendAction) : ℕ :=
  (FramedPart.encodeAll (r.parts ctx ++ (securityPart actions).toList)).length

/-- Whatever is done to a request, it is framed exactly when its arguments are regular and it is not
too long. -/
theorem framed_iff (ctx : MessageContext) (r : Request) (actions : List SendAction) (s : DataOutput)
    (hs : Sound s) (hoffset : s.offset = 0) (bytes : List (BitVec 8))
    (hbuffer : r.buffer ctx actions s = some bytes) :
    Framed bytes (r.parts ctx) (securityPart actions) ↔
      r.Regular ∧ r.length ctx actions < 2 ^ 31 := by
  cases hm : r.message with
  | error =>
    rw [buffer, hm] at hbuffer
    cases hbuffer
  | ok m =>
    rw [buffer, hm] at hbuffer
    dsimp only at hbuffer
    cases hrun : (m.send ctx actions).run s with
    | error =>
      rw [hrun] at hbuffer
      cases hbuffer
    | ok header s' =>
      rw [hrun] at hbuffer
      cases hbuffer
      obtain ⟨_, _, hrun₁, hrun₂⟩ := exists_of_run_bind hrun
      obtain ⟨body, hlayout⟩ := write_layout hs hoffset hrun₁
      have hfinal : Layout ctx m s' header body (securityPart actions) :=
        performAll_layout hlayout hrun₂
      obtain ⟨_, hwritten⟩ := hfinal.written_eq
      have hparts : r.parts ctx = m.framedParts ctx := by
        rw [parts, hm]
      rw [hwritten, framed_headerBytes_iff rfl, length, encodeAll_append,
        length_append, length_append, hparts, ← counted_iff hm, and_comm (a := Counted m)]
      exact declares_iff hfinal.spec (numOfParts_le hm) _

def newOutput : DataOutput where
  memory _ := 0
  allocated := true
  size := 8192
  offset := 0
  haveBigBuffer := false
  allocator := .ample

/-- The key is a number. -/
def numberKey : Request :=
  invalidate (some ⟨[0x2f, 0x72], true, true⟩) (.object (.cacheableInt32 7)) .null

def sentTwice : List SendAction :=
  [.addConnectionPart 7, .updateHeaderForRetry, .addConnectionPart 8]

/-- The header, the region, the key, the event and the security part of the second time. -/
def numberKeyBytes : List (BitVec 8) :=
  [0, 0, 0, 83, 0, 0, 0, 53, 0, 0, 0, 3, 255, 255, 255, 255, 6] ++
    [0, 0, 0, 2, 0, 0x2f, 0x72] ++ [0, 0, 0, 5, 1, 57, 0, 0, 0, 7] ++
    [0, 0, 0, 18, 0, 3, 0, 0, 0, 0, 0, 0, 0, 1, 3, 0, 0, 0, 0, 0, 0, 0, 1] ++
    [0, 0, 0, 8, 0, 0, 0, 0, 0, 0, 0, 0, 8]

theorem framed_iff_numberKey :
    numberKey.buffer ⟨.strict, true, none, 1, 0⟩ sentTwice newOutput = some numberKeyBytes ∧
    Framed numberKeyBytes (numberKey.parts ⟨.strict, true, none, 1, 0⟩)
      (securityPart sentTwice) :=
  ⟨by decide +kernel, (framed_iff ⟨.strict, true, none, 1, 0⟩ numberKey sentTwice newOutput
    ⟨rfl, by decide, by decide, by decide⟩ rfl _ (by decide +kernel)).mpr
      ⟨trivial, by decide +kernel⟩⟩

/-- The parts of the buffer of a request, if nothing fails and they can be read. -/
def readBack (buffer : Option (List (BitVec 8))) : Option (Option (List FramedPart)) :=
  buffer.map fun bytes => takeParts (natOfBytes ((bytes.drop 8).take 4)) (bytes.drop 17)

/-- A query with a negative timeout declares one part more than it has, and the empty name and query
of a continuous query take four bytes instead of ten. -/
theorem not_framed_negativeTimeout :
    readBack ((queryWithParameters [0x71] [] (-1)).buffer ⟨.strict, false, none, 1, 0⟩ []
      newOutput) = some none ∧
    readBack ((executeCq [] [] 1 false).buffer ⟨.strict, false, none, 1, 0⟩ [] newOutput) =
      some none := by
  decide +kernel

end Request

end GeodeNative
