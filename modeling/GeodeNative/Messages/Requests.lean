import GeodeNative.Messages.Framing

/-!
# The requests

Each constructor of a request writes the header with the number of parts, computed from the
arguments, then the parts, and then the length of the message. A message is given by its type, this
number and the list of its parts; `TcrMessage.write` is what the constructors have in common.

A `getAll` is finished by `InitializeGetallMsg`, and the credentials of a user are written by
`createUserCredentialMessage` into an output that was reset; both are taken here with the message
that they finish.
-/

namespace GeodeNative

/-- `TcrMessage::MsgType`, as far as requests use it. -/
inductive MsgType
  | request | ping | put | destroy | destroyRegion | closeConnection | registerInterest
  | unregisterInterest | registerInterestList | unregisterInterestList | createRegion | makePrimary
  | query | clearRegion | containsKey | keySet | executeCq | executeCqWithIr | stopCq | closeCq
  | periodicAck | clientReady | putAll | executeRegionFunction | executeFunction | requestEventValue
  | getClientPrMetadata | getClientPartitionAttributes | userCredentialMessage | removeUserAuth
  | executeRegionFunctionSingleHop | queryWithParameters | size | invalidate | commit | rollback
  | txFailover | txSynchronization | getFunctionAttributes | getPdxTypeById | getPdxIdForType
  | addPdxType | addPdxEnum | getPdxIdForEnum | getPdxEnumById | getAll70 | getDurableCqs
  | getAllWithCallback | putAllWithCallback | removeAll
  deriving DecidableEq, Repr

namespace MsgType

def value : MsgType → BitVec 32
  | request => 0 | ping => 5 | put => 7 | destroy => 9 | destroyRegion => 11
  | closeConnection => 18 | registerInterest => 20 | unregisterInterest => 22
  | registerInterestList => 24 | unregisterInterestList => 25 | createRegion => 29
  | makePrimary => 31 | query => 34 | clearRegion => 36 | containsKey => 38 | keySet => 40
  | executeCq => 42 | executeCqWithIr => 43 | stopCq => 44 | closeCq => 45 | periodicAck => 52
  | clientReady => 53 | putAll => 56 | executeRegionFunction => 59 | executeFunction => 62
  | requestEventValue => 68 | getClientPrMetadata => 71 | getClientPartitionAttributes => 73
  | userCredentialMessage => 77 | removeUserAuth => 78 | executeRegionFunctionSingleHop => 79
  | queryWithParameters => 80 | size => 81 | invalidate => 83 | commit => 85 | rollback => 87
  | txFailover => 88 | txSynchronization => 90 | getFunctionAttributes => 91
  | getPdxTypeById => 92 | getPdxIdForType => 93 | addPdxType => 94 | addPdxEnum => 96
  | getPdxIdForEnum => 97 | getPdxEnumById => 98 | getAll70 => 100 | getDurableCqs => 105
  | getAllWithCallback => 107 | putAllWithCallback => 108 | removeAll => 109

/-- `TcrMessage::isUserInitiativeOps` for a message that is not about a meta region. -/
def isUserInitiativeOp : MsgType → Bool
  | ping | periodicAck | makePrimary | closeConnection | clientReady | requestEventValue
  | getClientPrMetadata | getClientPartitionAttributes | getPdxIdForType | getPdxTypeById
  | addPdxType | size | txFailover | txSynchronization | getFunctionAttributes | addPdxEnum
  | getPdxEnumById | getPdxIdForEnum | commit | rollback => false
  | _ => true

end MsgType

/-- A part of a message, as a call of one of the writers. -/
inductive MessagePart
  | region (regionName : List (BitVec 8))
  | string (str : List (BitVec 8))
  | int (intValue : BitVec 32)
  | byte (byteValue : BitVec 8)
  | byteAndTimeOut (byteValue : BitVec 8) (timeout : BitVec 64)
  | milliseconds (millis : BitVec 64)
  | interestResultPolicy (policy : BitVec 8)
  | eventId (fullValueAfterDeltaFail : Bool)
  | object (se : Serializable) (isDelta callToData : Bool)
  | keys (getAllKeyList : Option (List Serializable))

/-- What a message takes from its surroundings. -/
structure MessageContext where
  codecvt : Codecvt
  /-- `isSecurityOn` of the connection's manager -/
  isSecurityOn : Bool
  /-- the transaction of the thread -/
  transactionId : Option (BitVec 32)
  /-- the ids of the thread's next event -/
  threadId : BitVec 64
  sequenceId : BitVec 64

/-- A message as its constructor builds it. -/
structure TcrMessage where
  msgType : MsgType
  /-- whether the constructor is given a connection's manager -/
  hasDM : Bool := true
  isMetaRegion : Bool := false
  numOfParts : ℕ
  parts : List MessagePart

namespace TcrMessage

def writePart (ctx : MessageContext) : MessagePart → WriteM Unit
  | .region regionName => writeRegionPart regionName
  | .string str => writeStringPart ctx.codecvt str
  | .int intValue => writeIntPart intValue
  | .byte byteValue => writeBytePart byteValue
  | .byteAndTimeOut byteValue timeout => writeByteAndTimeOutPart byteValue timeout
  | .milliseconds millis => writeMillisecondsPart millis
  | .interestResultPolicy policy => writeInterestResultPolicyPart policy
  | .eventId fullValueAfterDeltaFail =>
    writeIdsData ctx.threadId
      (if fullValueAfterDeltaFail then ctx.sequenceId else ctx.sequenceId + 1)
  | .object se isDelta callToData => writeObjectPart ctx.codecvt se isDelta callToData none
  | .keys getAllKeyList => writeObjectPart ctx.codecvt .null false false getAllKeyList

def writeParts (ctx : MessageContext) : List MessagePart → WriteM Unit
  | [] => return ()
  | part :: parts => do
    writePart ctx part
    writeParts ctx parts

/-- `earlyAck` of `writeHeader` -/
def earlyAck (ctx : MessageContext) (m : TcrMessage) : BitVec 8 :=
  if m.hasDM && ctx.isSecurityOn && m.msgType.isUserInitiativeOp && !m.isMetaRegion then 0x2 else 0

def writeHeader (ctx : MessageContext) (m : TcrMessage) : WriteM Unit :=
  writeHeaderBytes m.msgType.value (BitVec.ofNat 32 m.numOfParts) (ctx.transactionId.getD (-1))
    (earlyAck ctx m)

/-- The body that the constructors share. -/
def write (ctx : MessageContext) (m : TcrMessage) : WriteM Unit := do
  writeHeader ctx m
  writeParts ctx m.parts
  writeMessageLength

end TcrMessage

/-! ## The constructors -/

/-- What the constructors read of a region. -/
structure RegionView where
  fullPath : List (BitVec 8)
  cachingEnabled : Bool
  concurrencyChecksEnabled : Bool

/-- Why a constructor throws, or what it runs into. -/
inductive RequestError
  /-- `IllegalArgumentException` with its text -/
  | illegalArgument (message : String)
  /-- a null pointer is dereferenced -/
  | nullDereference
  deriving DecidableEq, Repr

namespace Request

/-- The name of a region that may be null. -/
def regionName : Option RegionView → List (BitVec 8)
  | none => "INVALID_REGION_NAME".toList.map fun c => BitVec.ofNat 8 c.toNat
  | some region => region.fullPath

/-- An object that is serialised with its header. -/
def object (se : Serializable) : MessagePart := .object se false false

def callback (aCallbackArgument : Serializable) : List MessagePart :=
  if aCallbackArgument.isNull then [] else [object aCallbackArgument]

def timeoutPart (timeout : BitVec 64) : List MessagePart :=
  if 0 ≤ timeout.toInt then [.milliseconds timeout] else []

/-- `++numOfParts` for a callback argument. -/
def callbackCount (aCallbackArgument : Serializable) : ℕ :=
  if aCallbackArgument.isNull then 0 else 1

/-- `numOfParts++` for a timeout. -/
def timeoutCount (timeout : BitVec 64) : ℕ :=
  if 0 ≤ timeout.toInt then 1 else 0

def boolByte (b : Bool) : BitVec 8 := if b then 1 else 0

/-- The flags of a region in bulk requests. -/
def flags (region : RegionView) : BitVec 32 :=
  (if region.cachingEnabled then 0 else 1) ||| (if region.concurrencyChecksEnabled then 2 else 0)

def keyIsNull : RequestError :=
  .illegalArgument "key passed to the constructor can't be nullptr"

def keysContainNull : RequestError :=
  .illegalArgument "keys in the interest list cannot be nullptr"

end Request

/-- The constructors with their arguments. Objects that a constructor itself makes are arguments as
well, as far as their serialised form is concerned. -/
inductive Request
  | destroyRegion (region : Option RegionView) (aCallbackArgument : Serializable)
      (messageResponsetimeout : BitVec 64)
  | clearRegion (region : Option RegionView) (aCallbackArgument : Serializable)
      (messageResponsetimeout : BitVec 64)
  | query (queryString : List (BitVec 8)) (messageResponsetimeout : BitVec 64)
  | stopCQ (cqName : List (BitVec 8)) (messageResponsetimeout : BitVec 64)
  | closeCQ (cqName : List (BitVec 8)) (messageResponsetimeout : BitVec 64)
  | queryWithParameters (queryString : List (BitVec 8)) (paramList : List Serializable)
      (messageResponsetimeout : BitVec 64)
  | containsKey (region : Option RegionView) (key aCallbackArgument : Serializable)
      (isContainsKey : Bool)
  | getDurableCqs
  | request (region : Option RegionView) (key aCallbackArgument : Serializable)
  | invalidate (region : Option RegionView) (key aCallbackArgument : Serializable)
  | destroy (region : Option RegionView) (key value : Serializable) (isUserNullValue : Bool)
      (removeBytePart aCallbackArgument : Serializable)
  | put (regionName : List (BitVec 8)) (key value aCallbackArgument : Serializable) (isDelta : Bool)
      (deltaFlag : Serializable) (isMetaRegion fullValueAfterDeltaFail : Bool)
  | ping
  | closeConnection (keepAlive : Bool)
  | registerInterestList (region : Option RegionView) (keys : List Serializable)
      (keyList : Serializable) (isDurable isCachingEnabled receiveValues : Bool)
      (interestPolicy : BitVec 8)
  | unregisterInterestList (region : Option RegionView) (keys : List Serializable)
      (isDurable : Bool)
  | createRegion (str1 str2 : List (BitVec 8))
  | registerInterestRegex (regionName regex : List (BitVec 8)) (interestPolicy : BitVec 8)
      (isDurable isCachingEnabled receiveValues : Bool)
  | unregisterInterestRegex (regionName regex : List (BitVec 8)) (isDurable : Bool)
  | txSynchronization (ordinal txid status : BitVec 32)
  | clientReady
  | commit
  | rollback
  | txFailover
  | makePrimary (processedMarker : Bool)
  | periodicAck (eventIds : List Serializable)
  | putAll (region : RegionView) (map : List (Serializable × Serializable))
      (messageResponsetimeout : BitVec 64) (aCallbackArgument : Serializable)
  | removeAll (region : RegionView) (keys : List Serializable) (aCallbackArgument : Serializable)
  | getAll (region : RegionView) (keys : Option (List Serializable))
      (aCallbackArgument : Serializable)
  | executeCq (cqName queryString : List (BitVec 8)) (state : BitVec 32) (isDurable : Bool)
  | executeCqWithIr (cqName queryString : List (BitVec 8)) (state : BitVec 32) (isDurable : Bool)
  | executeFunction (funcName : List (BitVec 8)) (args : Serializable) (getResult : BitVec 8)
      (timeout : BitVec 64)
  | executeRegionFunction (funcName : List (BitVec 8)) (region : Option RegionView)
      (args : Serializable) (routingObj : Option (List Serializable)) (getResult : BitVec 8)
      (failedNodes : Option (ℕ × Serializable)) (timeout : BitVec 64) (reExecute : BitVec 8)
  | executeRegionFunctionSingleHop (funcName : List (BitVec 8)) (region : Option RegionView)
      (args : Serializable) (routingObj : Option (List Serializable)) (getResult : BitVec 8)
      (failedNodes : Option (ℕ × Serializable)) (allBuckets : Bool) (timeout : BitVec 64)
  | getClientPartitionAttributes (regionName : List (BitVec 8))
  | getClientPrMetadata (regionName : List (BitVec 8))
  | size (regionName : List (BitVec 8))
  | userCredential (creds : List (BitVec 8))
  | removeUserAuth (keepAlive : Bool)
  | requestEventValue (eventId : Serializable)
  | getPdxIdForType (pdxType : Serializable)
  | addPdxType (pdxType : Serializable) (pdxTypeId : BitVec 32)
  | getPdxIdForEnum (pdxType : Serializable)
  | addPdxEnum (pdxType : Serializable) (pdxTypeId : BitVec 32)
  | getPdxTypeById (typeId : BitVec 32)
  | getPdxEnumById (typeId : BitVec 32)
  | getFunctionAttributes (funcName : List (BitVec 8))
  | keySet (funcName : List (BitVec 8))

namespace Request

/-- The constructors that only name a region, a function or a query. -/
def naming (msgType : MsgType) (hasDM : Bool) (name : List (BitVec 8)) : TcrMessage :=
  { msgType, hasDM, numOfParts := 1, parts := [.region name] }

/-- The constructors without arguments send a dummy byte. -/
def dummy (msgType : MsgType) (hasDM : Bool) (byteValue : BitVec 8) : TcrMessage :=
  { msgType, hasDM, numOfParts := 1, parts := [.byte byteValue] }

/-- `TcrMessageDestroyRegion` and `TcrMessageClearRegion` -/
def regionOp (msgType : MsgType) (region : Option RegionView) (aCallbackArgument : Serializable)
    (messageResponsetimeout : BitVec 64) : TcrMessage :=
  { msgType
    numOfParts := 1 + callbackCount aCallbackArgument + 1 + timeoutCount messageResponsetimeout
    parts := [.region (regionName region), .eventId false] ++ callback aCallbackArgument ++
      timeoutPart messageResponsetimeout }

/-- `TcrMessageQuery`, `TcrMessageStopCQ` and `TcrMessageCloseCQ` -/
def queryOp (msgType : MsgType) (queryString : List (BitVec 8))
    (messageResponsetimeout : BitVec 64) : TcrMessage :=
  { msgType
    numOfParts := 1 + 1 + timeoutCount messageResponsetimeout
    parts := [.region queryString, .eventId false] ++ timeoutPart messageResponsetimeout }

/-- `TcrMessageExecuteCq` and `TcrMessageExecuteCqWithIr` -/
def executeCqOp (msgType : MsgType) (cqName queryString : List (BitVec 8)) (state : BitVec 32)
    (isDurable : Bool) : TcrMessage :=
  { msgType
    numOfParts := 5
    parts := [.string cqName, .string queryString, .int state, .byte (boolByte isDurable),
      .byte 1] }

/-- The last parts of the two requests that register an interest. -/
def interestFlags (isCachingEnabled receiveValues : Bool) : List MessagePart :=
  [object (.bytes [boolByte !receiveValues]), object (.bytes [boolByte isCachingEnabled, 0])]

/-- The parts of the keys and values of a map. -/
def entryParts (map : List (Serializable × Serializable)) : List MessagePart :=
  map.flatMap fun entry => [object entry.1, object entry.2]

/-- The parts of the nodes that failed. -/
def failedParts : Option (ℕ × Serializable) → List MessagePart
  | some (count, failedNodes) => [.int (BitVec.ofNat 32 count), object failedNodes]
  | none => [.int 0]

/-- `numOfParts` of the two requests that execute a function on a region. -/
def functionCount (routing : ℕ) (failedNodes : Option (ℕ × Serializable)) : ℕ :=
  6 + routing + 2 + if failedNodes.isSome then 1 else 0

/-- The parts for the buckets that a function is sent to. -/
def bucketParts : List Serializable → Except RequestError (List MessagePart)
  | [] => .ok []
  | .object ⟨_, _, _, some value⟩ :: routing => do
    let parts ← bucketParts routing
    return .int value :: parts
  | _ :: _ => .error .nullDereference

/-- The parts for the keys or buckets that a function is sent to. -/
def routingParts (allBuckets : Bool) :
    Option (List Serializable) → Except RequestError (List MessagePart)
  | none => .ok [.int 0]
  | some routing => do
    let parts ← if allBuckets then bucketParts routing else .ok (routing.map object)
    return .int (BitVec.ofNat 32 routing.length) :: parts

/-- The message of a constructor, which refuses null keys. -/
def message : Request → Except RequestError TcrMessage
  | destroyRegion region cb timeout => .ok (regionOp .destroyRegion region cb timeout)
  | clearRegion region cb timeout => .ok (regionOp .clearRegion region cb timeout)
  | query queryString timeout => .ok (queryOp .query queryString timeout)
  | stopCQ cqName timeout => .ok (queryOp .stopCq cqName timeout)
  | closeCQ cqName timeout => .ok (queryOp .closeCq cqName timeout)
  | queryWithParameters queryString paramList timeout =>
    .ok {
      msgType := .queryWithParameters
      numOfParts := 4 + paramList.length
      parts := [.region queryString, .int (BitVec.ofNat 32 paramList.length), .int 15] ++
        timeoutPart timeout ++ paramList.map object }
  | containsKey region key cb isContainsKey =>
    if key.isNull then .error keyIsNull
    else .ok {
      msgType := .containsKey
      numOfParts := 2 + callbackCount cb + 1
      parts := [.region (regionName region), object key, .int (if isContainsKey then 0 else 1)] ++
        callback cb }
  | getDurableCqs => .ok (dummy .getDurableCqs true 0)
  | request region key cb =>
    if key.isNull then .error keyIsNull
    else .ok {
      msgType := .request
      numOfParts := 2 + callbackCount cb + 1 - 1
      parts := [.region (regionName region), object key] ++ callback cb }
  | invalidate region key cb =>
    if key.isNull then .error keyIsNull
    else .ok {
      msgType := .invalidate
      numOfParts := 2 + callbackCount cb + 1
      parts := [.region (regionName region), object key, .eventId false] ++ callback cb }
  | destroy region key value isUserNullValue removeBytePart cb =>
    if key.isNull then .error keyIsNull
    else if !value.isNull || isUserNullValue then .ok {
      msgType := .destroy
      numOfParts := 2 + callbackCount cb + 1 + 2
      parts := [.region (regionName region), object key, object value, object removeBytePart,
        .eventId false] ++ callback cb }
    else .ok {
      msgType := .destroy
      numOfParts := 2 + callbackCount cb + 1 + 2
      parts := [.region (regionName region), object key, object .null, object .null,
        .eventId false] ++ callback cb }
  | put regionName key value cb isDelta deltaFlag isMetaRegion fullValueAfterDeltaFail =>
    if key.isNull then .error keyIsNull
    else .ok {
      msgType := .put
      isMetaRegion
      numOfParts := 5 + callbackCount cb + 1 + 1
      parts := [.region regionName, object .null, .int 0, object key, object deltaFlag,
        .object value isDelta false, .eventId fullValueAfterDeltaFail] ++ callback cb }
  | ping => .ok { msgType := .ping, hasDM := false, numOfParts := 0, parts := [] }
  | closeConnection keepAlive => .ok (dummy .closeConnection false (boolByte keepAlive))
  | registerInterestList region keys keyList isDurable isCachingEnabled receiveValues policy =>
    if policy ≠ 0 ∧ policy ≠ 2 then
      .error (.illegalArgument "interestPolicy must be NONE or KEYS_VALUES.")
    else if keys.any Serializable.isNull then .error keysContainNull
    else .ok {
      msgType := .registerInterestList
      numOfParts := 6
      parts := [.region (regionName region), .interestResultPolicy policy,
        .byte (boolByte isDurable), object keyList] ++
        interestFlags isCachingEnabled receiveValues }
  | unregisterInterestList region keys isDurable =>
    if keys.any Serializable.isNull then .error keysContainNull
    else .ok {
      msgType := .unregisterInterestList
      numOfParts := 4 + keys.length
      parts := [.region (regionName region), .byte 0, .byte (boolByte isDurable),
        .int (BitVec.ofNat 32 keys.length)] ++ keys.map object }
  | createRegion str1 str2 =>
    .ok { msgType := .createRegion, numOfParts := 2, parts := [.region str1, .region str2] }
  | registerInterestRegex regionName regex policy isDurable isCachingEnabled receiveValues =>
    .ok {
      msgType := .registerInterest
      numOfParts := 7
      parts := [.region regionName, .int 1, .interestResultPolicy policy,
        .byte (boolByte isDurable), .region regex] ++
        interestFlags isCachingEnabled receiveValues }
  | unregisterInterestRegex regionName regex isDurable =>
    .ok {
      msgType := .unregisterInterest
      numOfParts := 5
      parts := [.region regionName, .int 1, .region regex, .byte 0, .byte (boolByte isDurable)] }
  | txSynchronization ordinal txid status =>
    .ok {
      msgType := .txSynchronization
      hasDM := false
      numOfParts := if ordinal = 1 then 3 else 2
      parts := [.int ordinal, .int txid] ++ if ordinal = 1 then [.int status] else [] }
  | clientReady => .ok (dummy .clientReady false 0)
  | commit => .ok (dummy .commit false 0)
  | rollback => .ok (dummy .rollback false 0)
  | txFailover => .ok (dummy .txFailover false 0)
  | makePrimary processedMarker => .ok (dummy .makePrimary false (boolByte processedMarker))
  | periodicAck eventIds =>
    .ok {
      msgType := .periodicAck
      hasDM := false
      numOfParts := eventIds.length
      parts := eventIds.map object }
  | putAll region map timeout cb =>
    .ok {
      msgType := if cb.isNull then .putAll else .putAllWithCallback
      numOfParts := (if cb.isNull then 5 + map.length * 2 else 6 + map.length * 2) +
        timeoutCount timeout
      parts := [.region region.fullPath, .eventId false, .int 0, .int (flags region),
        .int (BitVec.ofNat 32 map.length)] ++ callback cb ++
        entryParts map ++ timeoutPart timeout }
  | removeAll region keys cb =>
    .ok {
      msgType := .removeAll
      -- the timeout of a message is negative unless its constructor sets it
      numOfParts := 5 + keys.length + timeoutCount (-1)
      parts := [.region region.fullPath, .eventId false, .int (flags region), object cb,
        .int (BitVec.ofNat 32 keys.length)] ++ keys.map object }
  | getAll region keys cb =>
    .ok {
      msgType := if cb.isNull then .getAll70 else .getAllWithCallback
      numOfParts := 3
      parts := [.region region.fullPath, .keys keys, if cb.isNull then .int 0 else object cb] }
  | executeCq cqName queryString state isDurable =>
    .ok (executeCqOp .executeCq cqName queryString state isDurable)
  | executeCqWithIr cqName queryString state isDurable =>
    .ok (executeCqOp .executeCqWithIr cqName queryString state isDurable)
  | executeFunction funcName args getResult timeout =>
    .ok {
      msgType := .executeFunction
      numOfParts := 3
      parts := [.byteAndTimeOut getResult timeout, .region funcName, object args] }
  | executeRegionFunction funcName region args routingObj getResult failedNodes timeout reExecute =>
    do
      let routing ← routingParts false routingObj
      return {
        msgType := .executeRegionFunction
        numOfParts := functionCount (routingObj.elim 0 List.length) failedNodes
        parts := [.byteAndTimeOut getResult timeout, .region (regionName region), .region funcName,
          object args, object .null, .byte reExecute] ++ routing ++ failedParts failedNodes }
  | executeRegionFunctionSingleHop funcName region args routingObj getResult failedNodes allBuckets
      timeout => do
      let routing ← routingParts allBuckets routingObj
      return {
        msgType := .executeRegionFunctionSingleHop
        numOfParts := functionCount (routingObj.elim 0 List.length) failedNodes
        parts := [.byteAndTimeOut getResult timeout, .region (regionName region), .region funcName,
          object args, object .null, .byte (boolByte allBuckets)] ++ routing ++
          failedParts failedNodes }
  | getClientPartitionAttributes name => .ok (naming .getClientPartitionAttributes false name)
  | getClientPrMetadata name => .ok (naming .getClientPrMetadata false name)
  | size name => .ok (naming .size false name)
  | userCredential creds =>
    .ok { msgType := .userCredentialMessage, numOfParts := 1, parts := [object (.bytes creds)] }
  | removeUserAuth keepAlive =>
    .ok {
      msgType := .removeUserAuth
      numOfParts := 1
      parts := [object (.bytes [boolByte keepAlive])] }
  | requestEventValue eventId =>
    .ok {
      msgType := .requestEventValue
      hasDM := false
      numOfParts := 1
      parts := [object eventId] }
  | getPdxIdForType pdxType =>
    .ok { msgType := .getPdxIdForType, numOfParts := 1, parts := [.object pdxType false true] }
  | addPdxType pdxType pdxTypeId =>
    .ok {
      msgType := .addPdxType
      numOfParts := 2
      parts := [.object pdxType false true, .int pdxTypeId] }
  | getPdxIdForEnum pdxType =>
    .ok { msgType := .getPdxIdForEnum, numOfParts := 1, parts := [object pdxType] }
  | addPdxEnum pdxType pdxTypeId =>
    .ok { msgType := .addPdxEnum, numOfParts := 2, parts := [object pdxType, .int pdxTypeId] }
  | getPdxTypeById typeId =>
    .ok { msgType := .getPdxTypeById, numOfParts := 1, parts := [.int typeId] }
  | getPdxEnumById typeId =>
    .ok { msgType := .getPdxEnumById, numOfParts := 1, parts := [.int typeId] }
  | getFunctionAttributes funcName => .ok (naming .getFunctionAttributes true funcName)
  | keySet funcName => .ok (naming .keySet true funcName)

end Request

/-! ## Sending -/

/-- What is done to a request before it is sent, or sent again. -/
inductive SendAction
  /-- `addSecurityPart(connectionId, unique_id, conn)` -/
  | addSecurityPart (connectionId uniqueId : BitVec 64)
  /-- `addSecurityPart(connectionId, conn)` -/
  | addConnectionPart (connectionId : BitVec 64)
  | updateHeaderForRetry
  deriving DecidableEq, Repr

namespace TcrMessage

def perform (codecvt : Codecvt) (header : SecurityHeader) : SendAction → WriteM SecurityHeader
  | .addSecurityPart connectionId uniqueId =>
    addSecurityPart codecvt [connectionId, uniqueId] header
  | .addConnectionPart connectionId => addSecurityPart codecvt [connectionId] header
  | .updateHeaderForRetry => do
    TcrMessage.updateHeaderForRetry
    return header

def performAll (codecvt : Codecvt) (header : SecurityHeader) :
    List SendAction → WriteM SecurityHeader
  | [] => return header
  | action :: actions => do
    let header' ← perform codecvt header action
    performAll codecvt header' actions

/-- A message is built and then prepared for its attempts. -/
def send (ctx : MessageContext) (m : TcrMessage) (actions : List SendAction) :
    WriteM SecurityHeader := do
  m.write ctx
  performAll ctx.codecvt {} actions

end TcrMessage

end GeodeNative
