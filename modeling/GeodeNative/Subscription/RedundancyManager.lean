import Mathlib.Data.List.Basic

/-!
# The redundancy manager

`ThinClientRedundancyManager` keeps the endpoints that hold the subscription queue of the client,
the primary first, apart from those that do not.  `maintainRedundancyLevel` replaces endpoints that
have failed; requests of the subscription go to the endpoints of the first list.

What an endpoint answers is given with each call.  The two lists are disjoint and have no
duplicates, so one call of `maintainRedundancyLevel` puts no question to an endpoint twice.
-/

namespace GeodeNative

/-- The error codes that the manager tells apart. -/
inductive SubscriptionErr
  | noErr
  | notCon
  | timeout
  | ioErr
  | msg
  | cacheServerException
  | notAuthorizedException
  | authenticationRequiredException
  | authenticationFailedException
  | cacheLocatorException
  | other
  deriving DecidableEq, Repr

namespace SubscriptionErr

/-- `ThinClientBaseDM::isFatalClientError`. -/
def isFatalClientError : SubscriptionErr → Bool
  | notAuthorizedException => true
  | authenticationRequiredException => true
  | authenticationFailedException => true
  | cacheLocatorException => true
  | _ => false

/-- `ThinClientBaseDM::isFatalError`. -/
def isFatalError (err : SubscriptionErr) : Bool :=
  err == msg || err == cacheServerException || err.isFatalClientError

end SubscriptionErr

/-- `m_redundantEndpoints` and `m_nonredundantEndpoints`. -/
structure EndpointLists (ε : Type) where
  redundantEndpoints : List ε
  nonredundantEndpoints : List ε

/-- The answers of the endpoints during one call; `isRedundantServer` is a queue status other than
`NON_REDUNDANT_SERVER`. -/
structure EndpointAnswers (ε : Type) where
  connected : ε → Bool
  sendMakePrimaryMesg : ε → Bool
  makePrimary : ε → SubscriptionErr
  makeSecondary : ε → SubscriptionErr
  isRedundantServer : ε → Bool

/-- The variables of `maintainRedundancyLevel`; `fatalError` is `none` while `fatal` is false.  No
code reads `promoted`, the endpoint that was made primary in this call. -/
structure RedundancyScan (ε : Type) where
  isRedundancySatisfied : Bool := false
  isPrimaryConnected : Bool := false
  isPrimaryAtBack : Bool := false
  secondaryCount : ℕ := 0
  tempRedundantEndpoints : List ε := []
  tempNonredundantEndpoints : List ε := []
  convertedPrimary : Option ε := none
  err : SubscriptionErr := .notCon
  fatalError : Option SubscriptionErr := none
  promoted : Option ε := none

namespace RedundancyScan

variable {ε : Type} [DecidableEq ε] (r : ℕ) (answers : EndpointAnswers ε)

/-! ## The scans -/

/-- A redundant endpoint that does not answer. -/
def drop (t : RedundancyScan ε) (ep : ε) : RedundancyScan ε :=
  { t with tempNonredundantEndpoints := t.tempNonredundantEndpoints ++ [ep] }

/-- An endpoint that could not be made redundant. -/
def failed (t : RedundancyScan ε) (err : SubscriptionErr) : RedundancyScan ε :=
  { t with err := err, fatalError := if err.isFatalError then some err else t.fatalError }

/-- The first redundant endpoint. -/
def visitFirst (t : RedundancyScan ε) (ep : ε) : RedundancyScan ε :=
  if answers.connected ep then { t with isPrimaryConnected := true, isRedundancySatisfied := r = 0 }
  else t.drop ep

/-- Another redundant endpoint. -/
def visitRedundant (t : RedundancyScan ε) (ep : ε) : RedundancyScan ε :=
  if t.isPrimaryConnected then
    if answers.connected ep then
      { t with
        secondaryCount := t.secondaryCount + 1
        isRedundancySatisfied := t.secondaryCount + 1 = r }
    else t.drop ep
  else if answers.sendMakePrimaryMesg ep then
    { t with isPrimaryConnected := true, promoted := some ep }
  else t.drop ep

/-- An endpoint that is not redundant; `last` is the last one of them. -/
def visitNonredundant (init : Bool) (last : Option ε) (t : RedundancyScan ε) (ep : ε) :
    RedundancyScan ε :=
  if t.isPrimaryConnected = false ∧ t.secondaryCount = r then
    -- when the client starts only the last endpoint is made primary, and the error stays
    if init = true ∧ some ep ≠ last then t.failed t.err
    else if answers.makePrimary ep = .noErr then
      { t with
        err := .noErr
        tempRedundantEndpoints := t.tempRedundantEndpoints ++ [ep]
        isRedundancySatisfied := true
        isPrimaryConnected := true
        isPrimaryAtBack := true
        promoted := some ep }
    else t.failed (answers.makePrimary ep)
  else if answers.makeSecondary ep = .noErr then
    { t with
      err := .noErr
      tempRedundantEndpoints := t.tempRedundantEndpoints ++ [ep]
      secondaryCount := t.secondaryCount + 1
      isRedundancySatisfied := t.isPrimaryConnected && t.secondaryCount + 1 = r }
  else t.failed (answers.makeSecondary ep)

/-- Both scans stop as soon as the redundancy level is satisfied. -/
def scan (visit : RedundancyScan ε → ε → RedundancyScan ε) : List ε → RedundancyScan ε →
    RedundancyScan ε
  | [], t => t
  | ep :: eps, t => if t.isRedundancySatisfied then t else scan visit eps (visit t ep)

/-- The scan of the redundant endpoints. -/
def scanRedundant : List ε → RedundancyScan ε
  | [] => {}
  | ep :: eps => scan (visitRedundant r answers) eps (visitFirst r answers {} ep)

/-! ## A new secondary is made primary -/

/-- Go through the new redundant endpoints from the last one on until one is made primary.  Those
that cannot be are given up, those that are skipped are put back. -/
def convert (skip : ε → Bool) : List ε → List ε → List ε × Option ε
  | [], skipped => (skipped, none)
  | ep :: eps, skipped =>
    if skip ep then convert skip eps (ep :: skipped)
    else if answers.sendMakePrimaryMesg ep then ((ep :: eps).reverse ++ skipped, some ep)
    else convert skip eps skipped

/-- When the client starts, servers that have a queue of it are preferred. -/
def convertOldHA (t : RedundancyScan ε) : RedundancyScan ε :=
  let oldHAEndPointPresent := t.tempRedundantEndpoints.any answers.isRedundantServer
  let found := convert answers (fun ep => oldHAEndPointPresent && !answers.isRedundantServer ep)
    t.tempRedundantEndpoints.reverse []
  { t with
    tempRedundantEndpoints := found.1
    isPrimaryConnected := found.2.isSome
    convertedPrimary := found.2
    promoted := found.2 }

/-- Any new redundant endpoint may become the primary. -/
def convertLast (t : RedundancyScan ε) : RedundancyScan ε :=
  let found := convert answers (fun _ => false) t.tempRedundantEndpoints.reverse []
  { t with
    tempRedundantEndpoints := found.1
    isPrimaryConnected := found.2.isSome
    isPrimaryAtBack := found.2.isSome
    promoted := found.2 }

/-- Step 2 of `maintainRedundancyLevel`. -/
def convertSecondary (init : Bool) (t : RedundancyScan ε) : RedundancyScan ε :=
  if t.isRedundancySatisfied || t.isPrimaryConnected then t
  else
    let t' := if init then t.convertOldHA answers else t
    if t'.isPrimaryConnected then t' else t'.convertLast answers

/-- What `maintainRedundancyLevel` returns. -/
def result (t : RedundancyScan ε) : SubscriptionErr :=
  if t.isRedundancySatisfied then .noErr
  else
    match t.fatalError with
    | some fatalError =>
      if t.err ≠ .noErr then fatalError else if t.isPrimaryConnected then .noErr else t.err
    | none => if t.isPrimaryConnected then .noErr else t.err

end RedundancyScan

/-! ## The lists -/

section Lists

variable {ε : Type} [DecidableEq ε]

/-- `ThinClientRedundancyManager::removeEndpointsInOrder`. -/
def removeEndpointsInOrder : List ε → List ε → List ε
  | [], _ => []
  | ep :: dest, [] => ep :: dest
  | ep :: dest, first :: src =>
    if ep = first then removeEndpointsInOrder dest src
    else ep :: removeEndpointsInOrder dest (first :: src)

/-- `ThinClientRedundancyManager::moveEndpointToLast`. -/
def moveEndpointToLast (eps : List ε) (ep : ε) : List ε := eps.erase ep ++ [ep]

/-- The last endpoint is put in front of the others. -/
def moveLastToFront (eps : List ε) : List ε := eps.getLast?.toList ++ eps.dropLast

/-- The new `m_redundantEndpoints`, with the primary in front. -/
def RedundancyScan.redundantEndpoints (t : RedundancyScan ε) (redundant : List ε) : List ε :=
  -- an endpoint that was converted may be in the middle
  let added := t.convertedPrimary.elim t.tempRedundantEndpoints
    (moveEndpointToLast t.tempRedundantEndpoints)
  let all := removeEndpointsInOrder redundant t.tempNonredundantEndpoints ++ added
  if t.isPrimaryConnected && (t.isPrimaryAtBack || t.convertedPrimary.isSome) then
    moveLastToFront all
  else all

end Lists

/-- The manager, with what the last call of `maintainRedundancyLevel` found.  No code reads
`lastPrimary`, the endpoint that was made primary last. -/
structure ThinClientRedundancyManager (ε : Type) extends EndpointLists ε where
  lastPrimary : Option ε
  isRedundancySatisfied : Bool
  isPrimaryConnected : Bool

/-- A call of `maintainRedundancyLevel`; with a pool, `selectServers` is what the servers are
chosen from if the redundancy level is not satisfied. -/
structure MaintainCall (ε : Type) where
  init : Bool
  selectServers : Option (List ε)
  answers : EndpointAnswers ε

namespace ThinClientRedundancyManager

variable {ε : Type} [DecidableEq ε]

/-- The endpoints that are not redundant, as the second scan finds them. -/
def candidates (m : ThinClientRedundancyManager ε) (call : MaintainCall ε)
    (t : RedundancyScan ε) : List ε :=
  if t.isRedundancySatisfied || call.init then m.nonredundantEndpoints
  else call.selectServers.getD m.nonredundantEndpoints

/-- The variables of `maintainRedundancyLevel` after its first two steps, with the endpoints that
are not redundant. -/
def rearrange (r : ℕ) (m : ThinClientRedundancyManager ε) (call : MaintainCall ε) :
    RedundancyScan ε × List ε :=
  let t := RedundancyScan.scanRedundant r call.answers m.redundantEndpoints
  let eps := m.candidates call t
  ((RedundancyScan.scan
    (RedundancyScan.visitNonredundant r call.answers call.init eps.getLast?) eps t).convertSecondary
      call.answers call.init, eps)

/-- `ThinClientRedundancyManager::maintainRedundancyLevel`. -/
def maintainRedundancyLevel (r : ℕ) (m : ThinClientRedundancyManager ε) (call : MaintainCall ε) :
    ThinClientRedundancyManager ε × SubscriptionErr :=
  let (t, eps) := m.rearrange r call
  ({ redundantEndpoints := t.redundantEndpoints m.redundantEndpoints
     nonredundantEndpoints :=
      removeEndpointsInOrder eps t.tempRedundantEndpoints ++ t.tempNonredundantEndpoints
     lastPrimary := t.promoted <|> m.lastPrimary
     isRedundancySatisfied := t.isRedundancySatisfied
     isPrimaryConnected := t.isPrimaryConnected }, t.result)

end ThinClientRedundancyManager

end GeodeNative
