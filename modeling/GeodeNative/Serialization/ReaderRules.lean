import GeodeNative.Serialization.DataInput

/-!
# Methods over two sources

The methods of `DataInput` are written once over a `DataSource`. A relation between what code
does over one source and over another holds for every method that checks for all the bytes it
reads, once it holds for a check, a byte, a number and a copy and is kept by sequencing. Safety
and the comparison with longer buffers are relations over the source of `DataInput` alone; the
comparison with a stream relates two sources.
-/

namespace GeodeNative

open DataInput

/-- What a relation between code over two sources has to satisfy. -/
structure ReaderRules {ε σ ε' σ' : Type} (S : DataSource ε σ) (S' : DataSource ε' σ')
    (P : (α : Type) → EStateM ε σ α → EStateM ε' σ' α → Prop) : Prop where
  pure : ∀ {α : Type} (a : α), P α (pure a) (pure a)
  bind : ∀ {α β : Type} {m : EStateM ε σ α} {n : EStateM ε' σ' α} {f : α → EStateM ε σ β}
    {g : α → EStateM ε' σ' β}, P α m n → (∀ a, P β (f a) (g a)) → P β (m >>= f) (n >>= g)
  throw : ∀ {α : Type} {e : ReadError}, e ≠ .outOfBounds →
    P α (S.input (throw e)) (S'.input (throw e))
  check : ∀ size, P Unit (S.checkBufferSize size) (S'.checkBufferSize size)
  read : P (BitVec 8) S.read S'.read
  readBoolean : P Bool S.readBoolean S'.readBoolean
  number : ∀ {w : ℕ} (k : ℕ), k < 2 ^ 64 →
    P (BitVec w) (do S.checkBufferSize (BitVec.ofNat 64 k); S.input (readBigEndian k 0))
      (do S'.checkBufferSize (BitVec.ofNat 64 k); S'.input (readBigEndian k 0))
  copyBytes : ∀ len, P (List (BitVec 8)) (do S.checkBufferSize len; S.input (copyBytes len))
    (do S'.checkBufferSize len; S'.input (copyBytes len))

namespace ReaderRules

variable {ε σ ε' σ' α β : Type} {S : DataSource ε σ} {S' : DataSource ε' σ'}
  {P : (α : Type) → EStateM ε σ α → EStateM ε' σ' α → Prop} (h : ReaderRules S S' P)
  {m m' : EStateM ε σ α} {n n' : EStateM ε' σ' α}

lemma rel_ite {c : Prop} [Decidable c] (hm : P α m n) (hm' : P α m' n') :
    P α (if c then m else m') (if c then n else n') := by
  split
  · exact hm
  · exact hm'

include h

/-- By induction on the turns of the loop. -/
lemma times (hm : P α m n) (k : ℕ) : P (List α) (times m k) (times n k) := by
  induction k with
  | zero => exact h.pure []
  | succ _ ih => exact h.bind hm fun a => h.bind ih fun as => h.pure (a :: as)

/-- What is made of the value that a method returns. -/
lemma map (hm : P α m n) (f : α → β) :
    P β (do return f (← m)) (do return f (← n)) :=
  h.bind hm fun a => h.pure (f a)

lemma readInt16 : P (BitVec 16) S.readInt16 S'.readInt16 := h.number 2 (by decide)

lemma readInt32 : P (BitVec 32) S.readInt32 S'.readInt32 := h.number 4 (by decide)

lemma readInt64 : P (BitVec 64) S.readInt64 S'.readInt64 := h.number 8 (by decide)

lemma readFloat : P (BitVec 32) S.readFloat S'.readFloat :=
  h.bind (h.check 4) fun _ => h.readInt32

lemma readDouble : P (BitVec 64) S.readDouble S'.readDouble :=
  h.bind (h.check 8) fun _ => h.readInt64

/-- Every branch of the code of a length. -/
lemma readArrayLength : P ℤ S.readArrayLength S'.readArrayLength := by
  refine h.bind h.read fun code => rel_ite (h.pure _) (rel_ite ?_ (h.pure _))
  refine rel_ite (h.map h.readInt16 _) (rel_ite (h.map h.readInt32 _) ?_)
  exact h.throw (by decide)

/-- By induction on the turns, with what is read so far as accumulator. -/
lemma unsignedVLLoop (turns shift : ℕ) (result : BitVec 64) :
    P (BitVec 64) (S.unsignedVLLoop turns shift result) (S'.unsignedVLLoop turns shift result) := by
  induction turns generalizing shift result with
  | zero => exact h.throw (by decide)
  | succ _ ih => exact h.bind h.read fun b => rel_ite (h.pure _) (ih _ _)

lemma readBytes : P (List (BitVec 8)) S.readBytes S'.readBytes :=
  h.bind h.readArrayLength fun _ => rel_ite (h.copyBytes _) (h.pure _)

lemma readArray (hm : P α m n) : P (List α) (S.readArray m) (S'.readArray n) :=
  h.bind h.readArrayLength fun _ => rel_ite (h.times hm _) (h.pure _)

/-- One case for each element type. -/
lemma readElements (element : ElementType) :
    P (List ReadValue) (S.readElements element) (S'.readElements element) := by
  cases element with
  | char | short => exact h.map (h.readArray h.readInt16) _
  | boolean => exact h.map (h.readArray h.readBoolean) _
  | byte => exact h.map (h.readArray h.read) _
  | int => exact h.map (h.readArray h.readInt32) _
  | long => exact h.map (h.readArray h.readInt64) _
  | float => exact h.map (h.readArray h.readFloat) _
  | double => exact h.map (h.readArray h.readDouble) _

lemma readArrayOfByteArrays :
    P (List (List (BitVec 8))) S.readArrayOfByteArrays S'.readArrayOfByteArrays :=
  h.bind h.readArrayLength fun _ => rel_ite (h.pure _)
    (rel_ite (h.throw (by decide)) (h.times h.readBytes _))

/-- The relation holds for every call that moves no cursor and reads no string. -/
theorem call {c : ReadCall} (hmoves : c.movesCursor = false) (hstrings : c.readsString = false) :
    P ReadValue (S.call c) (S'.call c) := by
  cases c with
  | read => exact h.map h.read _
  | readBoolean => exact h.map h.readBoolean _
  | readBytesOnly len => exact h.map (rel_ite (h.copyBytes len) (h.pure _)) _
  | readBytes => exact h.map h.readBytes _
  | readInt16 => exact h.map h.readInt16 _
  | readInt32 => exact h.map h.readInt32 _
  | readInt64 => exact h.map h.readInt64 _
  | readArrayLength => exact h.map h.readArrayLength _
  | readUnsignedVL => exact h.map (h.unsignedVLLoop 10 0 0) _
  | readFloat => exact h.map h.readFloat _
  | readDouble => exact h.map h.readDouble _
  | readNativeBool => exact h.map (h.bind h.read fun _ => h.readBoolean) _
  | readNativeInt32 => exact h.map (h.bind h.read fun _ => h.readInt32) _
  | readArray element => exact h.map (h.readElements element) _
  | readArrayOfByteArrays => exact h.map h.readArrayOfByteArrays _
  | readUTF | readString | readStringArray => cases hstrings
  | advanceCursor | rewindCursor | reset => cases hmoves

end ReaderRules

end GeodeNative
