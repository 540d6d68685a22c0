import GeodeNative.Serialization.StreamDataInput

/-!
# A stream reads like a buffer

A method that asks for every byte before it reads it ends on a `StreamDataInput` as it ends
on the `DataInput` over all that the connection delivers, however this is split into
chunks (`Mirrors`). Two methods read bytes that they have not asked for: the decoder of
modified UTF-8 reads the bytes that the first byte of a character announces, and a UTF-16
string takes twice the bytes that it asks for. A cursor that was moved behind the
received bytes reads from there without asking at all. `Arrived` says which bytes must
have been received.
-/

namespace GeodeNative

open List Nat

open DataInput

namespace StreamDataInput

variable {element : ElementType} {bytes buffer : List (BitVec 8)} {size : BitVec 64}
  {reached : ℕ → ℕ} {pos : ℕ} {conversion : Conversion} {t : StreamDataInput} {a : α}

/-! ## What has been received -/

/-- How many bytes have been received once those before `p` are needed. -/
def reachFrom (p : ℕ) : ℕ → List Chunk → ℕ
  | len, [] => len
  | len, c :: cs => if len < p then reachFrom p (len + c.bytes.length) cs else len

/-- How many bytes the stream has received once those before `p` are needed. -/
def reach (t : StreamDataInput) (p : ℕ) : ℕ :=
  reachFrom p t.buffer.length t.pending

/-- What is still to come arrives before the timeout. -/
def OnTime (t : StreamDataInput) : Prop :=
  ((t.pending.map Chunk.timeSpent).sum : ℤ) < t.remainingTimeBeforeTimeout

/-- Every request was made because the unread bytes were fewer than needed. -/
def AskedInNeed (t : StreamDataInput) : Prop :=
  ∀ r ∈ t.requests, r.unread < r.needed

/-- The stream delivers `bytes`, its cursor is at a received position, and it receives at least
as much as `reached` says. -/
structure Held (bytes : List (BitVec 8)) (reached : ℕ → ℕ) (pos : ℕ) (t : StreamDataInput) :
    Prop where
  bytes_eq : t.flat.buffer = bytes
  offset_eq : t.offset.toNat = pos
  le : pos ≤ t.buffer.length
  reached_le : ∀ p, reached p ≤ t.reach p
  onTime : t.OnTime
  asked : t.AskedInNeed

/-- Asking for more never gives up what was received. -/
lemma le_reachFrom (p len : ℕ) (chunks : List Chunk) : len ≤ reachFrom p len chunks := by
  induction chunks generalizing len with
  | nil => exact le_rfl
  | cons _ _ ih =>
    rw [reachFrom]
    split
    · exact (le_add_right _ _).trans (ih _)
    · exact le_rfl

/-- No more is received than the connection delivers. -/
lemma reachFrom_le (p len : ℕ) (chunks : List Chunk) :
    reachFrom p len chunks ≤ len + (chunks.flatMap Chunk.bytes).length := by
  induction chunks generalizing len with
  | nil => exact le_add_right _ _
  | cons c _ ih =>
    rw [reachFrom, flatMap_cons, length_append]
    split
    · have h := ih (len + c.bytes.length)
      omega
    · exact le_add_right _ _

section Held

/-- What is received begins what is delivered. -/
lemma buffer_initial (t : StreamDataInput) : t.buffer <+: t.flat.buffer := prefix_append _ _

section

variable (h : Held bytes reached pos t)

include h

/-- The cursor is at the same place of what is delivered. -/
lemma Held.at_flat : At bytes pos t.flat :=
  ⟨h.bytes_eq, h.offset_eq, h.le.trans (h.bytes_eq ▸ t.buffer_initial.length_le)⟩

lemma Held.at_received : At t.buffer pos t.received := ⟨rfl, h.offset_eq, h.le⟩

/-- The check compares with what is received so far. -/
lemma Held.lt_iff (size : BitVec 64) :
    t.getBytesRemaining < size ↔ t.buffer.length < pos + size.toNat :=
  h.at_received.lt_iff size

end

variable {rest : List Chunk} {c : Chunk}

/-- A chunk that arrives in time is appended to the buffer. -/
lemma run_receive (hp : (t.ask size).pending = c :: rest) (htime : t.OnTime) :
    (receive size).run t = .ok () ((t.ask size).take hp) := by
  obtain ⟨_, _, pending, _, time, _⟩ := t
  obtain rfl : pending = c :: rest := hp
  rw [OnTime, map_cons, sum_cons] at htime
  have hlate : ¬ time - c.timeSpent ≤ 0 := by
    dsimp only at htime
    omega
  have hbranch : ∀ m m' : StreamM Unit, (if time - c.timeSpent ≤ 0 then m else m') = m' :=
    fun m m' => if_neg hlate
  exact congrFun (hbranch _ _) _

lemma flat_buffer (t : StreamDataInput) :
    t.flat.buffer = t.buffer ++ t.pending.flatMap Chunk.bytes := rfl

/-- A chunk that arrives was delivered all the time. -/
lemma flat_take (hp : t.pending = c :: rest) : (t.take hp).flat = t.flat := by
  simp [flat, take, hp]

variable (h : Held bytes reached pos t)

include h

/-- A request for bytes keeps what is held. -/
lemma Held.ask (hneed : t.getBytesRemaining < size) : Held bytes reached pos (t.ask size) := by
  refine ⟨h.bytes_eq, h.offset_eq, h.le, h.reached_le, h.onTime, fun r hr => ?_⟩
  rcases mem_cons.mp hr with rfl | hr
  · exact hneed
  · exact h.asked r hr

/-- The arrival of a chunk keeps what is held. -/
lemma Held.take (hp : t.pending = c :: rest) : Held bytes reached pos (t.take hp) where
  __ := h
  bytes_eq := by
    rw [flat_take]
    exact h.bytes_eq
  le := h.le.trans (prefix_append _ _).length_le
  reached_le p := by
    calc reached p ≤ reachFrom p t.buffer.length (c :: rest) := hp ▸ h.reached_le p
      _ ≤ reachFrom p (t.buffer.length + c.bytes.length) rest := by
        rw [reachFrom]
        split
        · exact le_rfl
        · exact (le_add_right _ _).trans (le_reachFrom p _ _)
      _ = (t.take hp).reach p := by
        exact congrArg (reachFrom p · rest) length_append.symm
  onTime := by
    have htime := h.onTime
    rw [OnTime, hp, map_cons, sum_cons] at htime
    rw [OnTime]
    dsimp only [StreamDataInput.take]
    omega

/-- Where enough is delivered, the loop receives what is needed, and as much as `reached` says. -/
lemma run_receiveLoop (hsize : pos + size.toNat ≤ bytes.length) :
    ∃ t', (receiveLoop size t.pending.length).run t = .ok () t' ∧ t'.flat = t.flat ∧
      Held bytes reached pos t' ∧ pos + size.toNat ≤ t'.buffer.length ∧
      reached (pos + size.toNat) ≤ t'.buffer.length := by
  generalize hn : t.pending.length = n
  induction n generalizing t with
  | zero =>
    have hnil : t.pending = [] := length_eq_zero_iff.mp hn
    have hall : t.buffer.length = bytes.length := by
      rw [← h.bytes_eq, flat_buffer, hnil, flatMap_nil, append_nil]
    have hneed : ¬ t.getBytesRemaining < size := by
      rw [h.lt_iff]
      omega
    refine ⟨t, ?_, rfl, h, hall ▸ hsize, (h.reached_le _).trans ?_⟩
    · rw [receiveLoop, run_get_bind, if_neg hneed]
      rfl
    · rw [reach, hnil, reachFrom]
  | succ n ih =>
    by_cases hneed : t.getBytesRemaining < size
    · obtain ⟨c, rest, hp⟩ : ∃ c rest, (t.ask size).pending = c :: rest :=
        exists_cons_of_length_eq_add_one hn
      have hrest : rest.length = n := by
        have hlen : (c :: rest).length = n + 1 := hp ▸ hn
        exact succ_injective hlen
      obtain ⟨t', hrun, hflat, hheld, hle, hreach⟩ := ih ((h.ask hneed).take hp) hrest
      refine ⟨t', ?_, ?_, hheld, hle, hreach⟩
      · rw [receiveLoop, run_get_bind, if_pos hneed, run_bind_of_ok (run_receive hp h.onTime)]
        exact hrun
      · rw [hflat, flat_take]
        rfl
    · have hlen : pos + size.toNat ≤ t.buffer.length := by
        rw [h.lt_iff] at hneed
        omega
      refine ⟨t, ?_, rfl, h, hlen, ?_⟩
      · rw [receiveLoop, run_get_bind, if_neg hneed]
        rfl
      · refine (h.reached_le _).trans (le_of_eq ?_)
        rw [reach]
        cases t.pending with
        | nil => rfl
        | cons => rw [reachFrom, if_neg (by omega)]

end Held

/-! ## Code that reads without a check -/

/-- What a method makes of a buffer it also makes of a longer one, unless it reads outside. -/
def Stable {α : Type} (m : ReadM α) : Prop :=
  ∀ s s' : DataInput, s.buffer <+: s'.buffer → s.offset = s'.offset →
    match m.run s with
    | .ok a u => u.buffer = s.buffer ∧ m.run s' = .ok a { s' with offset := u.offset }
    | .error e u => e = .outOfBounds ∨
        u.buffer = s.buffer ∧ m.run s' = .error e { s' with offset := u.offset }

section Stable

variable {α β : Type} {m : ReadM α}

lemma stable_pure : Stable (pure a) := fun s s' _ hoff => ⟨rfl, by
  rw [hoff]
  rfl⟩

lemma stable_throw (e : ReadError) : Stable (throw e : ReadM α) := fun s s' _ hoff => .inr ⟨rfl, by
  rw [hoff]
  rfl⟩

/-- Stable methods compose. -/
lemma Stable.bind {f : α → ReadM β} (hm : Stable m) (hf : ∀ a, Stable (f a)) :
    Stable (m >>= f) := by
  intro s s' hinit hoff
  have hout := hm s s' hinit hoff
  cases hrun : m.run s with
  | ok a u =>
    rw [hrun] at hout
    obtain ⟨hbuf, hrun'⟩ := hout
    have hnext := hf a u { s' with offset := u.offset } (hbuf ▸ hinit) rfl
    rw [run_bind_of_ok hrun, run_bind_of_ok hrun']
    split <;> rename_i hrunf <;> rw [hrunf] at hnext
    · exact ⟨hnext.1.trans hbuf, hnext.2⟩
    · exact hnext.imp_right fun h => ⟨h.1.trans hbuf, h.2⟩
  | error =>
    rw [hrun] at hout
    rw [run_bind_of_error hrun]
    exact hout.imp_right fun h => ⟨h.1, run_bind_of_error h.2⟩

/-- A byte that is received is the byte that is delivered. -/
lemma stable_readNoCheck : Stable readNoCheck := by
  intro s s' hinit hoff
  unfold readNoCheck
  rw [run_get_bind, run_get_bind, ← hoff]
  cases hb : s.buffer[s.offset.toNat]? with
  | none => exact .inl rfl
  | some b =>
    have hb' : s'.buffer[s.offset.toNat]? = some b := by
      rw [getElem?_eq_some_iff] at hb ⊢
      exact ⟨hb.1.trans_le hinit.length_le, (hinit.getElem hb.1).symm.trans hb.2⟩
    rw [hb']
    exact ⟨rfl, rfl⟩

lemma Stable.times (hm : Stable m) (n : ℕ) : Stable (times m n) := by
  induction n with
  | zero => exact stable_pure
  | succ _ ih => exact hm.bind fun _ => ih.bind fun _ => stable_pure

lemma stable_readBigEndian {w : ℕ} (n : ℕ) (acc : BitVec w) : Stable (readBigEndian n acc) := by
  induction n generalizing acc with
  | zero => exact stable_pure
  | succ _ ih => exact stable_readNoCheck.bind fun _ => ih _

lemma stable_copyBytes (len : BitVec 64) : Stable (copyBytes len) := by
  intro s s' hinit hoff
  unfold copyBytes
  rw [run_get_bind, run_get_bind, ← hoff]
  by_cases hle : s.offset.toNat + len.toNat ≤ s.buffer.length
  · obtain ⟨_, htail⟩ := hinit
    have hle' : s.offset.toNat + len.toNat ≤ s'.buffer.length := by
      rw [← htail, length_append]
      omega
    have htake : (s'.buffer.drop s.offset.toNat).take len.toNat =
        (s.buffer.drop s.offset.toNat).take len.toNat := by
      rw [← htail, drop_append_of_le_length (by omega),
        take_append_of_le_length (by rw [length_drop]; omega)]
    rw [if_pos hle, if_pos hle', htake]
    exact ⟨rfl, rfl⟩
  · rw [if_neg hle]
    exact .inl rfl

lemma stable_advanceCursor (offset : BitVec 64) : Stable (advanceCursor offset) := by
  intro _ _ _ hoff
  exact ⟨rfl, by rw [advanceCursor, run_get_bind, ← hoff]; rfl⟩

/-- The decoder looks at single bytes only. -/
lemma stable_decodeUtf8 (length : BitVec 16) : Stable (decodeUtf8 length) := by
  intro s s' hinit hoff
  unfold decodeUtf8
  rw [run_get_bind, run_get_bind, ← hoff]
  have hfinds := finds_decode hinit length.toNat s.offset.toNat (s.offset.toNat + length.toNat)
  dsimp only
  cases hdecode : decode s.buffer length.toNat s.offset.toNat (s.offset.toNat + length.toNat) with
  | error =>
    rw [hdecode] at hfinds
    exact .inl hfinds
  | ok units =>
    rw [hdecode] at hfinds
    rw [show decode s'.buffer length.toNat s.offset.toNat (s.offset.toNat + length.toNat) =
      .ok units from hfinds]
    exact ((stable_advanceCursor _).bind fun _ => stable_pure) s s' hinit hoff

lemma stable_convert (units : List (BitVec 16)) : Stable (convert conversion units) := by
  unfold convert
  split
  · exact stable_throw _
  · exact stable_pure

end Stable

/-! ## Methods that end on the stream as they end on what it delivers -/

/-- From a received position, a method of the stream ends as the method of `DataInput` does on
all that is delivered, unless that one throws for want of bytes. -/
def Mirrors {α : Type} (bytes : List (BitVec 8)) (reached : ℕ → ℕ) (pos : ℕ) (m : StreamM α)
    (n : ReadM α) : Prop :=
  ∀ t, Held bytes reached pos t →
    match n.run t.flat with
    | .ok a s => ∃ t', m.run t = .ok a t' ∧ t'.flat = s ∧ ∃ pos', Held bytes reached pos' t'
    | .error e s => Scarce e ∨
        ∃ t', m.run t = .error (.read e) t' ∧ t'.flat = s ∧ ∃ pos', Held bytes reached pos' t'

section Mirrors

variable {α β : Type} {m : StreamM α} {n : ReadM α}

lemma mirrors_pure : Mirrors bytes reached pos (pure a) (pure a) := fun t h =>
  ⟨t, rfl, rfl, pos, h⟩

/-- What follows needs to be considered only for the values and positions that the first method
can end with. -/
lemma Mirrors.bind {Q : α → ℕ → Prop} {f : α → StreamM β} {g : α → ReadM β}
    (hm : Mirrors bytes reached pos m n) (hQ : ReadsTo bytes pos n Q)
    (hf : ∀ a pos', Q a pos' → Mirrors bytes reached pos' (f a) (g a)) :
    Mirrors bytes reached pos (m >>= f) (n >>= g) := by
  intro t ht
  have hout := hm t ht
  have hflat := hQ t.flat ht.at_flat
  cases hrun : n.run t.flat with
  | ok a =>
    rw [hrun] at hout hflat
    obtain ⟨t', hrun', rfl, pos', hheld⟩ := hout
    obtain ⟨pos'', hat, hq⟩ := hflat
    obtain rfl : pos'' = pos' := hat.offset_eq.symm.trans hheld.offset_eq
    rw [run_bind_of_ok hrun, run_bind_of_ok hrun']
    exact hf a _ hq t' hheld
  | error =>
    rw [hrun] at hout
    rw [run_bind_of_error hrun]
    refine hout.imp_right ?_
    rintro ⟨t', hrun', hflat', hheld⟩
    exact ⟨t', run_bind_of_error hrun', hflat', hheld⟩

/-- Both sides take the same branch. -/
lemma Mirrors.ite {c : Prop} [Decidable c] {m' : StreamM α} {n' : ReadM α}
    (ht : c → Mirrors bytes reached pos m n) (hf : ¬ c → Mirrors bytes reached pos m' n') :
    Mirrors bytes reached pos (if c then m else m') (if c then n else n') := by
  split
  · exact ht ‹_›
  · exact hf ‹_›

/-- The check throws where bytes are wanting, and receives where they are not. -/
lemma run_check (t : StreamDataInput) (ht : Held bytes reached pos t) :
    (checkBufferSize size).run t.flat = .error .outOfRange t.flat ∨
      (checkBufferSize size).run t.flat = .ok () t.flat ∧
      ∃ t', (source.checkBufferSize size).run t = .ok () t' ∧ t'.flat = t.flat ∧
        Held bytes reached pos t' ∧ pos + size.toNat ≤ t'.buffer.length ∧
        reached (pos + size.toNat) ≤ t'.buffer.length := by
  have hlt := ht.at_flat.lt_iff size
  unfold checkBufferSize
  rw [run_get_bind]
  by_cases hshort : t.flat.bufferLength - t.flat.offset < size
  · left
    rw [if_pos hshort]
    rfl
  · right
    rw [if_neg hshort]
    rw [hlt] at hshort
    exact ⟨rfl, run_receiveLoop ht (by omega)⟩

/-- Code that stays in the received bytes ends as it does on all of them. -/
lemma run_input (ht : Held bytes reached pos t) (hstable : Stable n)
    (hread : ReadsTo t.buffer pos n fun _ _ => True) :
    match n.run t.flat with
    | .ok a s => ∃ t', (source.input n).run t = .ok a t' ∧ t'.flat = s ∧
        ∃ pos', Held bytes reached pos' t'
    | .error e s => Scarce e ∨ ∃ t', (source.input n).run t = .error (.read e) t' ∧ t'.flat = s ∧
        ∃ pos', Held bytes reached pos' t' := by
  have hout := hread t.received ht.at_received
  have hsame := hstable t.received t.flat t.buffer_initial rfl
  have hrun : (source.input n).run t = match n.run t.received with
      | .ok a s => .ok a { t with offset := s.offset }
      | .error e s => .error (.read e) { t with offset := s.offset } := rfl
  have hmoved : ∀ {pos'} {s : DataInput}, At t.buffer pos' s →
      Held bytes reached pos' { t with offset := s.offset } := fun hs =>
    ⟨ht.bytes_eq, hs.offset_eq, hs.le, ht.reached_le, ht.onTime, ht.asked⟩
  cases hn : n.run t.received with
  | ok =>
    rw [hn] at hout hsame hrun
    obtain ⟨pos', hat, -⟩ := hout
    rw [hsame.2]
    exact ⟨_, hrun, rfl, pos', hmoved hat⟩
  | error =>
    rw [hn] at hout hsame hrun
    obtain ⟨hne, pos', hat⟩ := hout
    rw [(hsame.resolve_left hne).2]
    exact .inr ⟨_, hrun, rfl, pos', hmoved hat⟩

/-- A method that asks for nothing reads what is received. -/
lemma mirrors_input (hstable : Stable n) (hread : ∀ buffer, ReadsTo buffer pos n fun _ _ => True) :
    Mirrors bytes reached pos (source.input n) n := fun t ht =>
  run_input ht hstable (hread t.buffer)

/-- A method that asks for bytes and then reads no others. -/
lemma mirrors_checked (hstable : Stable n)
    (hread : ∀ buffer, buffer <+: bytes → pos + size.toNat ≤ buffer.length →
      reached (pos + size.toNat) ≤ buffer.length → ReadsTo buffer pos n fun _ _ => True) :
    Mirrors bytes reached pos (do source.checkBufferSize size; source.input n)
      (do checkBufferSize size; n) := by
  intro t ht
  rcases run_check t ht with hflat | ⟨hflat, t', hrun, heq, hheld, hle, hreached⟩
  · rw [run_bind_of_error hflat]
    exact .inl (.inl rfl)
  rw [run_bind_of_ok hflat, run_bind_of_ok hrun, ← heq]
  have hinit : t'.buffer <+: bytes := hheld.bytes_eq ▸ t'.buffer_initial
  exact run_input hheld hstable (hread t'.buffer hinit hle hreached)

/-- The check asks until the bytes arrive, or the end is reached on both sides. -/
lemma mirrors_check (size : BitVec 64) :
    Mirrors bytes reached pos (source.checkBufferSize size) (checkBufferSize size) := by
  intro t ht
  rcases run_check t ht with hflat | ⟨hflat, t', hrun, heq, hheld, -⟩
  · rw [hflat]
    exact .inl (.inl rfl)
  · rw [hflat]
    exact ⟨t', hrun, heq, pos, hheld⟩

/-- The loop rule, with the turns left and the position in the invariant. -/
lemma Mirrors.times {I : ℕ → ℕ → Prop} (hm : ∀ k pos, I (k + 1) pos → Mirrors bytes reached pos m n)
    (hn : ∀ k pos, I (k + 1) pos → ReadsTo bytes pos n fun _ pos' => I k pos') {k : ℕ}
    (hI : I k pos) : Mirrors bytes reached pos (times m k) (times n k) := by
  induction k generalizing pos with
  | zero => exact mirrors_pure
  | succ k ih =>
    refine (hm k pos hI).bind (hn k pos hI) fun a pos' hI' => ?_
    exact (ih hI').bind (.times hn hI') fun as _ _ => mirrors_pure

end Mirrors

/-! ## Methods that ask for every byte -/

/-- Wherever its cursor is in the received bytes, a method ends on the stream as on what is
delivered. -/
def MirrorsAlways {α : Type} (m : StreamM α) (n : ReadM α) : Prop :=
  ∀ bytes reached pos, Mirrors bytes reached pos m n

section Always

variable {α β : Type} {m : StreamM α} {n : ReadM α}

/-- The second method begins where the safe first one ended. -/
lemma MirrorsAlways.bind {f : α → StreamM β} {g : α → ReadM β} (hm : MirrorsAlways m n)
    (hn : Safe n) (hf : ∀ a, MirrorsAlways (f a) (g a)) : MirrorsAlways (m >>= f) (n >>= g) :=
  fun bytes reached pos => (hm bytes reached pos).bind (hn bytes pos) fun a pos' _ =>
    hf a bytes reached pos'

lemma mirrorsAlways_pure : MirrorsAlways (pure a) (pure a) := fun _ _ _ => mirrors_pure

/-- A method that asks first and stays within what it asked for. -/
lemma mirrorsAlways_checked (hstable : Stable n)
    (hread : ∀ buffer pos, pos + size.toNat ≤ buffer.length →
      ReadsTo buffer pos n fun _ _ => True) :
    MirrorsAlways (do source.checkBufferSize size; source.input n)
      (do checkBufferSize size; n) := fun _ _ _ =>
  mirrors_checked hstable fun buffer _ hle _ => hread buffer _ hle

/-- The methods that ask for the bytes they read end on the stream as on what is delivered. -/
lemma mirrorsRules :
    ReaderRules source DataInput.source fun _ m n => Safe n ∧ MirrorsAlways m n where
  pure a := ⟨safeRules.pure a, mirrorsAlways_pure⟩
  bind hm hf := ⟨hm.1.bind fun a => (hf a).1,
    hm.2.bind hm.1 fun a => (hf a).2⟩
  throw h := ⟨safe_throw h, fun _ _ _ => mirrors_input (stable_throw _) fun _ => .throw h⟩
  check size := ⟨safeRules.check size, fun _ _ _ => mirrors_check size⟩
  read := ⟨safeRules.read, mirrorsAlways_checked stable_readNoCheck fun _ _ hle =>
    (readNoCheck_readsTo hle).mono fun _ _ _ => trivial⟩
  readBoolean := ⟨safeRules.readBoolean,
    mirrorsAlways_checked (stable_readNoCheck.bind fun _ => stable_pure) fun _ _ hle =>
      (readNoCheck_readsTo hle).bind fun _ _ _ => .pure trivial⟩
  number k hk := ⟨safeRules.number k hk,
    mirrorsAlways_checked (stable_readBigEndian k 0) fun _ _ hle =>
      (readBigEndian_readsTo 0 (by rwa [BitVec.toNat_ofNat, mod_eq_of_lt hk] at hle)).mono
        fun _ _ _ => trivial⟩
  copyBytes len := ⟨safeRules.copyBytes len, mirrorsAlways_checked (stable_copyBytes len)
    fun _ _ hle => (copyBytes_readsTo hle).mono fun _ _ _ => trivial⟩

lemma mirrors_convert {units : List (BitVec 16)} :
    MirrorsAlways (source.input (convert conversion units)) (convert conversion units) :=
  fun _ _ _ => mirrors_input (stable_convert units) fun _ =>
    convert_readsTo.mono fun _ _ _ => trivial

/-- An ASCII string asks for all its bytes. -/
lemma mirrors_readAsciiOf (length : BitVec 64) :
    MirrorsAlways (source.readAsciiOf length) (DataInput.source.readAsciiOf length) := by
  have hbyte : Stable (do let b ← readNoCheck; return (b &&& 0x7F).toNat) :=
    stable_readNoCheck.bind fun _ => stable_pure
  refine mirrorsAlways_checked (hbyte.times _) fun buffer pos hle => ?_
  refine (times_readsTo (k := 1) (fun p hp => ?_) (by simpa using hle)).mono fun _ _ _ => trivial
  exact (readNoCheck_readsTo hp).bind fun _ _ h => .pure h.1

lemma mirrors_readAscii : MirrorsAlways source.readAscii readAscii :=
  mirrorsRules.readInt16.2.bind mirrorsRules.readInt16.1 fun _ => mirrors_readAsciiOf _

lemma mirrors_readAsciiHuge : MirrorsAlways source.readAsciiHuge readAsciiHuge :=
  mirrorsRules.readInt32.2.bind mirrorsRules.readInt32.1 fun _ => mirrors_readAsciiOf _

end Always

/-! ## Strings -/

/-- The last character of the modified UTF-8 string whose length is at `pos` has been received
once the bytes that the length counts are. -/
def Utf8Arrives (bytes : List (BitVec 8)) (reached : ℕ → ℕ) (pos : ℕ) : Prop :=
  let length := numberAt bytes pos 2
  pos + 2 + length ≤ bytes.length →
    utf8End bytes length (pos + 2) (pos + 2 + length) ≤ reached (pos + 2 + length)

/-- The units of the UTF-16 string whose length is at `pos` have been received once as many
bytes are. -/
def Utf16Arrives (bytes : List (BitVec 8)) (reached : ℕ → ℕ) (pos : ℕ) : Prop :=
  let length := numberAt bytes pos 4
  pos + 4 + length ≤ bytes.length → pos + 4 + 2 * length ≤ reached (pos + 4 + length)

/-- What must have been received of a string whose code is at `pos`. -/
def StringArrives (bytes : List (BitVec 8)) (reached : ℕ → ℕ) (pos : ℕ) : Prop :=
  (numberAt bytes pos 1 = 42 → Utf8Arrives bytes reached (pos + 1)) ∧
    (numberAt bytes pos 1 = 89 → Utf16Arrives bytes reached (pos + 1))

/-- What must have been received of `n` strings, one behind the other. -/
def StringsArrive (bytes : List (BitVec 8)) (reached : ℕ → ℕ) : ℕ → ℕ → Prop
  | 0, _ => True
  | n + 1, pos =>
    StringArrives bytes reached pos ∧ StringsArrive bytes reached n (stringEnd bytes pos)

/-- What has arrived is part of what is delivered. -/
lemma Utf8Arrives.fits (h : Utf8Arrives bytes reached pos) (hle : ∀ p, reached p ≤ bytes.length) :
    Utf8Fits bytes pos := fun hlen => (h hlen).trans (hle _)

lemma Utf16Arrives.fits (h : Utf16Arrives bytes reached pos)
    (hle : ∀ p, reached p ≤ bytes.length) : Utf16Fits bytes pos := fun hlen =>
  (h hlen).trans (hle _)

lemma StringArrives.fits (h : StringArrives bytes reached pos)
    (hle : ∀ p, reached p ≤ bytes.length) : StringFits bytes pos :=
  ⟨fun h42 => (h.1 h42).fits hle, fun h89 => (h.2 h89).fits hle⟩

/-- The characters of a string that ends in the received bytes are those of the whole. -/
lemma utf8End_of_initial (h : buffer <+: bytes) {turns stop : ℕ}
    (hle : utf8End bytes turns pos stop ≤ buffer.length) :
    utf8End buffer turns pos stop = utf8End bytes turns pos stop := by
  induction turns generalizing pos with
  | zero => rfl
  | succ turns ih =>
    rw [utf8End] at hle
    rw [utf8End, utf8End]
    by_cases hlt : pos < stop
    · rw [if_pos hlt] at hle
      rw [if_pos hlt, if_pos hlt]
      have hpos : pos < buffer.length := by
        have hend : _ ≤ utf8End bytes turns (pos + utf8Length (bytes.getD pos 0)) stop := le_utf8End
        have hone : 0 < utf8Length (bytes.getD pos 0) := by
          unfold utf8Length
          split
          · decide
          · split <;> decide
        omega
      have hbyte : buffer.getD pos 0 = bytes.getD pos 0 := by
        rw [getD_eq_getElem?_getD, getD_eq_getElem?_getD, getElem?_eq_getElem hpos,
          getElem?_eq_getElem (hpos.trans_le h.length_le), h.getElem hpos]
      rw [hbyte]
      exact ih hle
    · rw [if_neg hlt, if_neg hlt]

/-- The decoder ends when its last character is in the buffer. -/
lemma decodeUtf8_readsTo {length : BitVec 16} (hlen : pos + length.toNat ≤ buffer.length)
    (hend : utf8End buffer length.toNat pos (pos + length.toNat) ≤ buffer.length) :
    ReadsTo buffer pos (decodeUtf8 length) fun _ _ => True := by
  obtain ⟨_, hunits⟩ := decode_of_le hend
  refine .get_bind fun s hs => ?_
  rw [hs.buffer_eq, hs.offset_eq]
  dsimp only
  rw [hunits]
  have hwide : (length.setWidth 64).toNat = length.toNat := toNat_setWidth_of_le (by decide)
  exact (advanceCursor_readsTo (hwide.symm ▸ hlen)).bind fun _ _ _ => .pure trivial

/-- The decoder may read behind the bytes that were asked for. -/
lemma mirrors_readJavaModifiedUtf8 (h : Utf8Arrives bytes reached pos) :
    Mirrors bytes reached pos source.readJavaModifiedUtf8 readJavaModifiedUtf8 := by
  refine (mirrorsRules.readInt16.2 bytes reached pos).bind readInt16_readsTo ?_
  rintro length _ ⟨rfl, hlength⟩
  refine mirrors_checked (stable_decodeUtf8 length) fun buffer hinit hle hreached => ?_
  rw [Utf8Arrives, ← hlength] at h
  have hend := (h (hle.trans hinit.length_le)).trans hreached
  exact decodeUtf8_readsTo hle ((utf8End_of_initial hinit hend).trans_le hend)

/-- Half of the bytes of a UTF-16 string are never asked for. -/
lemma mirrors_readUtf16Huge (h : Utf16Arrives bytes reached pos) :
    Mirrors bytes reached pos source.readUtf16Huge readUtf16Huge := by
  refine (mirrorsRules.readInt32.2 bytes reached pos).bind readInt32_readsTo ?_
  rintro length _ ⟨rfl, hlength⟩
  have hstable : Stable (times readInt16NoCheck length.toNat) := (stable_readBigEndian 2 0).times _
  refine mirrors_checked hstable fun buffer hinit hle hreached => ?_
  rw [Utf16Arrives, ← hlength] at h
  refine (times_readsTo (k := 2) (fun p hp => ?_)
    ((h (hle.trans hinit.length_le)).trans hreached)).mono fun _ _ _ => trivial
  exact (readInt16NoCheck_readsTo hp).mono fun _ _ hpos => hpos.1

lemma mirrors_readUTF (h : Utf8Arrives bytes reached pos) (hle : ∀ p, reached p ≤ bytes.length) :
    Mirrors bytes reached pos (source.readUTF conversion) (readUTF conversion) :=
  (mirrors_readJavaModifiedUtf8 h).bind (readJavaModifiedUtf8_readsTo (h.fits hle))
    fun _ pos' _ => mirrors_convert bytes reached pos'

/-- Only the forms with a hypothesis read what they have not asked for. -/
lemma mirrors_readString (h : StringArrives bytes reached pos)
    (hle : ∀ p, reached p ≤ bytes.length) :
    Mirrors bytes reached pos (source.readString conversion) (readString conversion) := by
  refine (mirrorsRules.read.2 bytes reached pos).bind read_readsTo ?_
  rintro _ pos' ⟨rfl, htype⟩
  refine .ite (fun h42 => ?_) fun _ => .ite (fun h89 => ?_) fun _ =>
    .ite (fun _ => mirrors_readAscii bytes reached _) fun _ =>
      .ite (fun _ => mirrors_readAsciiHuge bytes reached _) fun _ => mirrors_pure
  · subst h42
    exact mirrors_readUTF (h.1 htype.symm) hle
  · subst h89
    have hunits := h.2 htype.symm
    exact (mirrors_readUtf16Huge hunits).bind (readUtf16Huge_readsTo (hunits.fits hle))
      fun units pos' _ => mirrors_convert bytes reached pos'

/-- By the run rule, with the strings still to come as its invariant. -/
lemma mirrors_readStringArray
    (h : StringsArrive bytes reached (arrayLengthAt bytes pos).1.toNat (arrayLengthAt bytes pos).2)
    (hle : ∀ p, reached p ≤ bytes.length) :
    Mirrors bytes reached pos (source.readStringArray conversion)
      (readStringArray conversion) := by
  refine (mirrorsRules.readArrayLength.2 bytes reached pos).bind readArrayLength_readsTo ?_
  intro _ _ hlen
  rw [← hlen] at h
  refine .ite (fun _ => ?_) fun _ => mirrors_pure
  refine .times (I := StringsArrive bytes reached)
    (fun k p hp => mirrors_readString hp.1 hle) (fun k p hp => ?_) h
  refine (readString_readsTo (hp.1.fits hle)).mono ?_
  rintro - p' rfl
  exact hp.2

/-! ## Runs -/

/-- What must have been received before a call: the byte at the cursor has, or everything before
it, and so has what the strings take beyond what they ask for. -/
def Arrived (t : StreamDataInput) : ReadCall → Prop
  | .advanceCursor _ | .rewindCursor _ | .reset _ => True
  | .readUTF _ =>
    t.offset.toNat ≤ t.buffer.length ∧ Utf8Arrives t.flat.buffer t.reach t.offset.toNat
  | .readString _ =>
    t.offset.toNat ≤ t.buffer.length ∧ StringArrives t.flat.buffer t.reach t.offset.toNat
  | .readStringArray _ =>
    t.offset.toNat ≤ t.buffer.length ∧
      let (length, start) := arrayLengthAt t.flat.buffer t.offset.toNat
      StringsArrive t.flat.buffer t.reach length.toNat start
  | _ => t.offset.toNat ≤ t.buffer.length

/-- What is made of the value is the same on both sides. -/
lemma Mirrors.return {α β : Type} {m : StreamM α} {n : ReadM α} (h : Mirrors bytes reached pos m n)
    {f : α → β} : Mirrors bytes reached pos (do return f (← m)) (do return f (← n)) := by
  intro t ht
  have hout := h t ht
  cases hrun : n.run t.flat with
  | ok =>
    rw [hrun] at hout
    obtain ⟨t', hrun', hflat⟩ := hout
    rw [run_bind_of_ok hrun, run_bind_of_ok hrun']
    exact ⟨t', rfl, hflat⟩
  | error =>
    rw [hrun] at hout
    rw [run_bind_of_error hrun]
    refine hout.imp_right ?_
    rintro ⟨t', hrun', hflat⟩
    exact ⟨t', run_bind_of_error hrun', hflat⟩

/-- A reading call for which enough has arrived ends as on what is delivered. -/
lemma mirrors_call {c : ReadCall} (hc : c.movesCursor = false)
    (h : t.Arrived c) (hle : ∀ p, t.reach p ≤ t.flat.buffer.length) :
    t.offset.toNat ≤ t.buffer.length ∧
      Mirrors t.flat.buffer t.reach t.offset.toNat (source.call c) (DataInput.source.call c) := by
  cases hstring : c.readsString with
  | true =>
    cases c with
    | readUTF => exact ⟨h.1, (mirrors_readUTF h.2 hle).return⟩
    | readString => exact ⟨h.1, (mirrors_readString h.2 hle).return⟩
    | readStringArray => exact ⟨h.1, (mirrors_readStringArray h.2 hle).return⟩
    | _ => cases hstring
  | false =>
    refine ⟨?_, (mirrorsRules.call hc hstring).2 _ _ _⟩
    cases c with
    | readUTF | readString | readStringArray => cases hstring
    | advanceCursor | rewindCursor | reset => cases hc
    | _ => exact h

end StreamDataInput

/-- A stream and a `DataInput` that get the same calls. -/
structure ReaderPair where
  stream : StreamDataInput
  flat : DataInput

namespace ReaderPair

/-- The state that a call ends in. -/
def after {ε σ α : Type} : EStateM.Result ε σ α → σ
  | .ok _ s => s
  | .error _ s => s

/-- What a caller sees of a call. -/
def outcome {ε σ α : Type} : EStateM.Result ε σ α → Except ε α
  | .ok a _ => .ok a
  | .error e _ => .error e

/-- Both readers get a call. -/
def step (p : ReaderPair) (c : ReadCall) : ReaderPair where
  stream := after ((StreamDataInput.source.call c).run p.stream)
  flat := after ((DataInput.source.call c).run p.flat)

/-- The bytes of the `DataInput` suffice for a call. -/
def Enough (p : ReaderPair) (c : ReadCall) : Prop :=
  match (DataInput.source.call c).run p.flat with
  | .ok _ _ => True
  | .error e _ => ¬ DataInput.Scarce e

/-- A call returns the same value, or throws the same exception, and the stream has asked for
bytes only where there were fewer than needed. -/
def SameResult (p : ReaderPair) (c : ReadCall) : Prop :=
  outcome ((StreamDataInput.source.call c).run p.stream) =
      (outcome ((DataInput.source.call c).run p.flat)).mapError .read ∧
    (p.step c).stream.AskedInNeed

instance (p : ReaderPair) (c : ReadCall) : Decidable (p.Enough c) :=
  match h : (DataInput.source.call c).run p.flat with
  | .ok _ _ => .isTrue (by rw [Enough, h]; trivial)
  | .error e _ => decidable_of_iff (¬ (e = .outOfRange ∨ e = .outOfBounds)) (by rw [Enough, h]; rfl)

variable {p : ReaderPair} {c : ReadCall}

/-- Both readers throw, or neither does. -/
lemma isOk_of_sameResult (h : p.SameResult c) :
    (outcome ((StreamDataInput.source.call c).run p.stream)).isOk =
      (outcome ((source.call c).run p.flat)).isOk := by
  rw [h.1]
  cases outcome ((source.call c).run p.flat) <;> rfl

/-- The `DataInput` is over what the stream delivers, which comes in time. -/
structure InStep (p : ReaderPair) : Prop where
  flat_eq : p.stream.flat = p.flat
  onTime : p.stream.OnTime
  asked : p.stream.AskedInNeed

lemma reach_le (t : StreamDataInput) (p : ℕ) : t.reach p ≤ t.flat.buffer.length :=
  (StreamDataInput.reachFrom_le p _ _).trans_eq length_append.symm

/-- Both cursors are moved to the same place. -/
lemma inStep_moved (h : p.InStep) {offset : BitVec 64} :
    InStep ⟨{ p.stream with offset }, { p.flat with offset }⟩ := by
  refine ⟨?_, h.onTime, h.asked⟩
  rw [← h.flat_eq]
  rfl

/-- One call: from readers in step, a call that finds what it needs ends alike on both, and
leaves them in step. -/
lemma step_inStep (h : p.InStep) (hneeds : p.Enough c)
    (harrived : p.stream.Arrived c) : p.SameResult c ∧ (p.step c).InStep := by
  obtain ⟨t, s⟩ := p
  obtain rfl : t.flat = s := h.flat_eq
  cases hc : c.movesCursor with
  | true =>
    cases c with
    | advanceCursor | rewindCursor | reset =>
        exact ⟨⟨rfl, h.asked⟩, inStep_moved h⟩
    | _ => cases hc
  | false =>
    obtain ⟨hle, hmirrors⟩ := StreamDataInput.mirrors_call hc harrived (reach_le t)
    have hout := hmirrors t ⟨rfl, rfl, hle, fun _ => le_rfl, h.onTime, h.asked⟩
    unfold Enough at hneeds
    unfold SameResult step
    cases hrun : (source.call c).run t.flat with
    | ok =>
      rw [hrun] at hout
      obtain ⟨t', hrun', hflat, pos', hheld⟩ := hout
      rw [hrun']
      exact ⟨⟨rfl, hheld.asked⟩, hflat, hheld.onTime, hheld.asked⟩
    | error =>
      rw [hrun] at hout hneeds
      obtain ⟨_, hrun', hflat, _, hheld⟩ := hout.resolve_left hneeds
      rw [hrun']
      exact ⟨⟨rfl, hheld.asked⟩, hflat, hheld.onTime, hheld.asked⟩

/-- A stream over a connection, and a `DataInput` over the bytes that it delivers. -/
def opened (chunks : List Chunk) (timeout : ℤ) (h : (chunks.flatMap Chunk.bytes).length < 2 ^ 64) :
    ReaderPair where
  stream := StreamDataInput.opened chunks timeout h
  flat := ⟨chunks.flatMap Chunk.bytes, h, 0⟩

/-- **A stream reads like a buffer.** However the bytes are split into chunks that arrive before
the timeout, every sequence of calls for which they suffice and each of which finds received what
it does not ask for returns the same on the stream as on the bytes, and the connection is asked
for more only when the unread bytes are fewer than needed. -/
theorem sameResult_of_everyStep_arrived (chunks : List Chunk) (timeout : ℤ)
    (hlength : (chunks.flatMap Chunk.bytes).length < 2 ^ 64)
    (htime : ((chunks.map Chunk.timeSpent).sum : ℤ) < timeout) (calls : List ReadCall)
    (h : EveryStep step (fun p c => p.Enough c ∧ p.stream.Arrived c) (opened chunks timeout hlength)
      calls) :
    EveryStep step SameResult (opened chunks timeout hlength) calls := by
  have hstart : (opened chunks timeout hlength).InStep :=
    ⟨rfl, htime, fun r hr => absurd hr not_mem_nil⟩
  exact everyStep_of_invariant (fun p c hp hc => (step_inStep hp hc.1 hc.2).2)
    (fun p c hp hc => (step_inStep hp hc.1 hc.2).1) hstart h

/-- The string `A` in two chunks, read into 16-bit units, which need no conversion. -/
theorem sameResult_readString_in_two_chunks :
    EveryStep step SameResult
      (opened [⟨[42, 0], by decide, by decide, 1⟩, ⟨[1, 65], by decide, by decide, 1⟩] 10
        (by decide))
      [.readString fun units => some (units.map BitVec.toNat)] := by
  refine sameResult_of_everyStep_arrived _ _ _ (by decide) _ ⟨⟨trivial, ?_⟩, trivial⟩
  refine ⟨by decide, fun _ => ?_, fun h => absurd h (by decide)⟩
  unfold StreamDataInput.Utf8Arrives
  decide

/-- Two streams that read what they have not received: a UTF-16 string of one unit whose second
byte is in the next chunk, and a byte behind one that was skipped. -/
theorem not_sameResult_of_unreceived :
    (EveryStep step Enough
        (opened [⟨[89, 0, 0, 0, 1, 0], by decide, by decide, 1⟩, ⟨[65], by decide, by decide, 1⟩] 10
          (by decide)) [.readString fun units => some (units.map BitVec.toNat)] ∧
      ¬ EveryStep step SameResult
        (opened [⟨[89, 0, 0, 0, 1, 0], by decide, by decide, 1⟩, ⟨[65], by decide, by decide, 1⟩] 10
          (by decide)) [.readString fun units => some (units.map BitVec.toNat)]) ∧
    EveryStep step Enough (opened [⟨[1, 2], by decide, by decide, 1⟩] 10 (by decide))
        [.advanceCursor 1, .read] ∧
      ¬ EveryStep step SameResult (opened [⟨[1, 2], by decide, by decide, 1⟩] 10 (by decide))
        [.advanceCursor 1, .read] := by
  refine ⟨⟨by decide +kernel, fun h => ?_⟩, by decide +kernel, fun h => ?_⟩
  · exact absurd (isOk_of_sameResult (everyStep_cons.mp h).1) (by decide +kernel)
  · exact absurd (isOk_of_sameResult (everyStep_cons.mp (everyStep_cons.mp h).2).1)
      (by decide +kernel)

end ReaderPair

end GeodeNative
