import GeodeNative.Library.RefStore
import GeodeNative.Pdx.TypeSpec

/-!
# Types that share their fields

A type of the source holds references to its fields. `clone` copies the references, so that
a merged type has the fields of the local type in common with it, and `generatePositionMap`
writes the offsets of the merged type into them. Here the fields are objects of a
`RefStore`, and the functions of `PdxType` that read and write them go through references.
-/

namespace GeodeNative

/-- A type and the references to its fields. -/
structure SharedType where
  /-- the members of the type; its list of fields is `refs` -/
  members : PdxType
  /-- `m_pdxFieldTypes` -/
  refs : List ℕ

namespace SharedType

/-- The type as its functions see it. -/
def view (h : RefStore PdxFieldType) (t : SharedType) : PdxType :=
  { t.members with pdxFieldTypes := h.view t.refs }

/-- `clone`: the references are copied. -/
def clone (h : RefStore PdxFieldType) (t : SharedType) : SharedType :=
  ⟨(t.view h).clone, t.refs⟩

/-- The loop of `mergeVersion` over the fields of the other version. -/
def mergeFields (h : RefStore PdxFieldType) (refs : List ℕ) (varLenFields : ℤ) :
    List ℕ → RefStore PdxFieldType × List ℕ × ℤ
  | [] => (h, refs, varLenFields)
  | it :: rest =>
    if refs.any fun it2 => (h.object it2).equals (h.object it) then
      mergeFields h refs varLenFields rest
    else
      let newFt : PdxFieldType := {
        fieldName := (h.object it).fieldName
        className := (h.object it).className
        typeId := (h.object it).typeId
        sequenceId := refs.length
        isVariableLengthType := (h.object it).isVariableLengthType
        fixedSize := (h.object it).fixedSize
        varLenFieldIdx := if (h.object it).isVariableLengthType then varLenFields else 0 }
      mergeFields (h.alloc newFt) (refs ++ [h.next])
        (if (h.object it).isVariableLengthType then varLenFields + 1 else varLenFields) rest

def mergeVersion (h : RefStore PdxFieldType) (t otherVersion : SharedType) :
    RefStore PdxFieldType × SharedType :=
  if (t.view h).isLocalTypeContains (otherVersion.view h) then
    (h, t)
  else if (t.view h).isRemoteTypeContains (otherVersion.view h) then
    (h, otherVersion)
  else
    let newone := t.clone h
    let (h, refs, varLenFields) :=
      mergeFields h newone.refs newone.members.numberOfVarLenFields otherVersion.refs
    (h, ⟨{ newone.members with
      numberOfVarLenFields := varLenFields
      varLenFieldIdx := if 0 < varLenFields then varLenFields
        else newone.members.varLenFieldIdx }, refs⟩)

/-- The loop of `generatePositionMap` from the last field to the first: `foundVarLen` and
`lastVarLenSeqId`. The field written before is the one behind. -/
def writeFromBack (h : RefStore PdxFieldType) : List ℕ → RefStore PdxFieldType × Bool × ℤ
  | [] => (h, false, 0)
  | tmpft :: refs =>
    let (h, foundVarLen, lastVarLenSeqId) := writeFromBack h refs
    let previous := PdxType.previousOffset (h.view refs)
    let f := h.object tmpft
    if f.isVariableLengthType then
      (h.set tmpft { f with vlOffsetIndex := f.varLenFieldIdx, relativeOffset := 0 }, true,
        f.varLenFieldIdx)
    else if foundVarLen then
      (h.set tmpft { f with
          vlOffsetIndex := lastVarLenSeqId
          relativeOffset := -f.fixedSize + previous },
        foundVarLen, lastVarLenSeqId)
    else
      (h.set tmpft { f with vlOffsetIndex := -1, relativeOffset := -f.fixedSize + previous },
        foundVarLen, lastVarLenSeqId)

/-- The loop of `generatePositionMap` from the first field to the first of variable length. -/
def writeFromFront (h : RefStore PdxFieldType) (prevFixedSizeOffsets : ℤ) :
    List ℕ → RefStore PdxFieldType
  | [] => h
  | tmpft :: refs =>
    let f := h.object tmpft
    if f.isVariableLengthType then
      h.set tmpft { f with vlOffsetIndex := -1, relativeOffset := prevFixedSizeOffsets }
    else
      writeFromFront
        (h.set tmpft { f with vlOffsetIndex := 0, relativeOffset := prevFixedSizeOffsets })
        (prevFixedSizeOffsets + f.fixedSize) refs

/-- What `InitializeType` writes into the fields; the maps that it makes are the type's own. -/
def initializeType (h : RefStore PdxFieldType) (t : SharedType) : RefStore PdxFieldType :=
  writeFromFront (writeFromBack h t.refs).1 0 t.refs

/-- `createMergedType`: what is left of the fields. A new version is initialized. -/
def createMergedType (h : RefStore PdxFieldType) (localType remoteType : SharedType) :
    RefStore PdxFieldType :=
  let (h, mergedVersion) := mergeVersion h localType remoteType
  if (mergedVersion.view h).eq (localType.view h) then
    h
  else if (mergedVersion.view h).eq (remoteType.view h) then
    h
  else
    mergedVersion.initializeType h

end SharedType

end GeodeNative
