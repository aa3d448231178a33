import Mathlib
import SeiChain.Oracle.Slash

namespace SeiChain.Oracle

open Sdk

-- `sdk.MsgTypeURL` of the messages below, which names what a grant allows.
inductive MsgType where
  | aggregateExchangeRateVote
  | delegateFeedConsent
  | exec
  | grant
  | revoke
  | other
  deriving DecidableEq

-- The stores the vote path reads and writes: the oracle's, the staking module's `validators`,
-- and the authz module's `grants`, by granter, grantee and message type. Addresses are
-- decoded: a validator's and an account's are the same bytes `A`.
structure VoteState (A : Type) where
  feederDelegations : A → Option A
  aggregateVotes : A → Option (AggregateVote A)
  spamPreventionCounters : A → Option Int
  validators : A → Option StakingValidator
  voteTargets : List String
  grants : A → A → MsgType → Bool

-- The oracle's two messages, the authz module's three, and any message of another module, by
-- its signer. A `MsgExec` carries messages of any of these kinds, `MsgExec` included.
inductive Msg (A : Type) where
  | aggregateExchangeRateVote (exchangeRates : List (String × Dec)) (feeder validator : A)
  | delegateFeedConsent (operator delegate : A)
  | exec (grantee : A) (msgs : List (Msg A))
  | grant (granter grantee : A) (msgType : MsgType)
  | revoke (granter grantee : A) (msgType : MsgType)
  | other (signer : A)

inductive ExecMode where
  | checkTx
  | reCheckTx
  | deliverTx
  deriving DecidableEq

variable {A : Type} [DecidableEq A]

namespace Msg

def isVote : Msg A → Bool
  | aggregateExchangeRateVote .. => true
  | _ => false

def voter : Msg A → Option A
  | aggregateExchangeRateVote _ _ validator => some validator
  | _ => none

-- `GetSigners`, each message having one: the feeder of a vote, the operator of a delegation,
-- the grantee of a `MsgExec` and the granter of a grant or a revocation.
def signer : Msg A → A
  | aggregateExchangeRateVote _ feeder _ => feeder
  | delegateFeedConsent operator _ => operator
  | exec grantee _ => grantee
  | grant granter _ _ => granter
  | revoke granter _ _ => granter
  | other signer => signer

def typeUrl : Msg A → MsgType
  | aggregateExchangeRateVote .. => .aggregateExchangeRateVote
  | delegateFeedConsent .. => .delegateFeedConsent
  | exec .. => .exec
  | grant .. => .grant
  | revoke .. => .revoke
  | other _ => .other

mutual
def votesFor (v : A) : Msg A → Bool
  | aggregateExchangeRateVote _ _ validator => decide (validator = v)
  | exec _ msgs => anyVotesFor v msgs
  | _ => false

def anyVotesFor (v : A) : List (Msg A) → Bool
  | [] => false
  | m :: msgs => votesFor v m || anyVotesFor v msgs
end

end Msg

-- `GetFeederDelegation`: by default the right stays with the validator itself.
def getFeederDelegation (s : VoteState A) (operator : A) : A :=
  (s.feederDelegations operator).getD operator

def setFeederDelegation (s : VoteState A) (operator delegatedFeeder : A) : VoteState A :=
  { s with feederDelegations := Function.update s.feederDelegations operator (some delegatedFeeder) }

def setAggregateExchangeRateVote (s : VoteState A) (voter : A) (vote : AggregateVote A) : VoteState A :=
  { s with aggregateVotes := Function.update s.aggregateVotes voter (some vote) }

-- `GetSpamPreventionCounter`: the height of the validator's last vote in CheckTx, or -1.
def getSpamPreventionCounter (s : VoteState A) (validator : A) : Int :=
  (s.spamPreventionCounters validator).getD (-1)

def setSpamPreventionCounter (s : VoteState A) (validator : A) (height : Int) : VoteState A :=
  { s with spamPreventionCounters := Function.update s.spamPreventionCounters validator (some height) }

-- The authz keeper's `SaveGrant` of a generic authorization, which accepts every message of its
-- type, and `DeleteGrant`.
def saveGrant (s : VoteState A) (grantee granter : A) (msgType : MsgType) : VoteState A :=
  { s with grants := fun g g' t => (g = granter ∧ g' = grantee ∧ t = msgType) || s.grants g g' t }

def deleteGrant (s : VoteState A) (grantee granter : A) (msgType : MsgType) :
    Except String (VoteState A) :=
  if s.grants granter grantee msgType then
    pure { s with grants := fun g g' t => !(g = granter ∧ g' = grantee ∧ t = msgType) && s.grants g g' t }
  else throw "authorization not found"

def validateFeeder (s : VoteState A) (feeder validator : A) : Except String Unit := do
  if feeder ≠ validator then
    if getFeederDelegation s validator ≠ feeder then throw "unauthorized voter"
  if (s.validators validator).any StakingValidator.bonded then pure ()
  else throw "validator does not exist"

namespace MsgServer

def aggregateExchangeRateVote (s : VoteState A) (exchangeRates : List (String × Dec)) (feeder validator : A) :
    Except String (VoteState A) := do
  validateFeeder s feeder validator
  let vote ← SeiChain.Oracle.aggregateExchangeRateVote s.voteTargets validator exchangeRates
  pure (setAggregateExchangeRateVote s validator vote)

def delegateFeedConsent (s : VoteState A) (operator delegate : A) : Except String (VoteState A) :=
  if s.validators operator = none then throw "validator does not exist"
  else pure (setFeederDelegation s operator delegate)

end MsgServer

mutual
-- The app's message router. The other modules' messages leave these stores alone.
def Msg.handle (s : VoteState A) : Msg A → Except String (VoteState A)
  | .aggregateExchangeRateVote exchangeRates feeder validator =>
    MsgServer.aggregateExchangeRateVote s exchangeRates feeder validator
  | .delegateFeedConsent operator delegate => MsgServer.delegateFeedConsent s operator delegate
  | .exec grantee msgs => dispatchActions s grantee msgs
  | .grant granter grantee msgType => pure (saveGrant s grantee granter msgType)
  | .revoke granter grantee msgType => deleteGrant s grantee granter msgType
  | .other _ => pure s

-- `DispatchActions` of the authz keeper, which `MsgExec` runs: a message whose signer is not the
-- grantee needs the signer's grant of its type to the grantee, and each message then goes
-- through the router.
def dispatchActions (s : VoteState A) (grantee : A) : List (Msg A) → Except String (VoteState A)
  | [] => pure s
  | m :: msgs => do
    if m.signer ≠ grantee ∧ s.grants m.signer grantee m.typeUrl = false then
      throw "authorization not found"
    let s ← m.handle s
    dispatchActions s grantee msgs
end

-- `oracleVoteIsGasless`: an error when the feeder may not vote or the validator already has a
-- vote in the window.
def oracleVoteIsGasless (s : VoteState A) (feeder validator : A) : Except String Bool := do
  validateFeeder s feeder validator
  match s.aggregateVotes validator with
  | some _ => throw "aggregate vote still present in current voting window"
  | none => pure true

-- The loop of `IsTxGasless` over a transaction's messages: the first message that is not a vote
-- ends it.
def isTxGaslessFrom (s : VoteState A) : List (Msg A) → Except String Bool
  | [] => pure true
  | .aggregateExchangeRateVote _ feeder validator :: msgs => do
    let isGasless ← oracleVoteIsGasless s feeder validator
    if !isGasless then pure false else isTxGaslessFrom s msgs
  | _ :: _ => pure false

def isTxGasless (s : VoteState A) (msgs : List (Msg A)) : Except String Bool :=
  if msgs = [] then pure false else isTxGaslessFrom s msgs

-- `CheckOracleSpamming`: the first message that is not a vote ends the check.
def checkOracleSpamming (s : VoteState A) (curHeight : Int) : List (Msg A) → Except String (VoteState A)
  | .aggregateExchangeRateVote _ feeder validator :: msgs => do
    validateFeeder s feeder validator
    if getSpamPreventionCounter s validator = curHeight then
      throw "the validator has already submitted a vote at the current height"
    checkOracleSpamming (setSpamPreventionCounter s validator curHeight) curHeight msgs
  | _ => pure s

def spammingPreventionAnteHandle (s : VoteState A) (mode : ExecMode) (simulate : Bool) (curHeight : Int)
    (msgs : List (Msg A)) : Except String (VoteState A) :=
  if mode = .reCheckTx then pure s
  else if !simulate ∧ mode = .checkTx then checkOracleSpamming s curHeight msgs
  else pure s

def voteAloneAnteHandle (msgs : List (Msg A)) : Except String Unit :=
  if msgs.any Msg.isVote ∧ msgs.any (!·.isVote) then
    throw "oracle votes cannot be in the same tx as other messages"
  else pure ()

-- The decorators of the ante chain that read oracle state, in the chain's order.
def anteHandle (s : VoteState A) (mode : ExecMode) (simulate : Bool) (curHeight : Int)
    (msgs : List (Msg A)) : Except String (VoteState A) := do
  let _ ← isTxGasless s msgs
  let s ← spammingPreventionAnteHandle s mode simulate curHeight msgs
  voteAloneAnteHandle msgs
  pure s

-- CheckTx at one height: the ante on the check state the transactions accepted before leave;
-- the messages do not run. The accepted transactions come out with the state.
def checkTxs (s : VoteState A) (curHeight : Int) : List (List (Msg A)) → VoteState A × List (List (Msg A))
  | [] => (s, [])
  | msgs :: txs =>
    match anteHandle s .checkTx false curHeight msgs with
    | .ok s' => ((checkTxs s' curHeight txs).1, msgs :: (checkTxs s' curHeight txs).2)
    | .error _ => checkTxs s curHeight txs

def deliverTx (s : VoteState A) (curHeight : Int) (msgs : List (Msg A)) : Except String (VoteState A) := do
  let s ← anteHandle s .deliverTx false curHeight msgs
  msgs.foldlM Msg.handle s

def clearBallots (s : VoteState A) : VoteState A := { s with aggregateVotes := fun _ => none }

def deliverTxs (s : VoteState A) (height : Int) (txs : List (List (Msg A))) : VoteState A :=
  txs.foldl (fun s msgs => (deliverTx s height msgs).commitOr s) s

def deliverBlock (votePeriod : Nat) (s : VoteState A) (height : Nat) (txs : List (List (Msg A))) :
    VoteState A :=
  let s := deliverTxs s height txs
  if (height + 1) % votePeriod = 0 then clearBallots s else s

def runBlocks (votePeriod : Nat) (s : VoteState A) (blocks : List (Nat × List (List (Msg A)))) : VoteState A :=
  blocks.foldl (fun s block => deliverBlock votePeriod s block.1 block.2) s

section Specs

variable {s s' : VoteState A}

@[simp] theorem aggregateVotes_setFeederDelegation (operator delegate : A) :
    (setFeederDelegation s operator delegate).aggregateVotes = s.aggregateVotes := rfl

theorem getFeederDelegation_setFeederDelegation_of_ne {operator w : A} (delegate : A) (h : w ≠ operator) :
    getFeederDelegation (setFeederDelegation s operator delegate) w = getFeederDelegation s w := by
  simp [getFeederDelegation, setFeederDelegation, h]

@[simp] theorem getFeederDelegation_setAggregateExchangeRateVote (voter : A) (vote : AggregateVote A) :
    getFeederDelegation (setAggregateExchangeRateVote s voter vote) = getFeederDelegation s := rfl

theorem getSpamPreventionCounter_setSpamPreventionCounter (validator : A) (height : Int) (w : A) :
    getSpamPreventionCounter (setSpamPreventionCounter s validator height) w =
      if w = validator then height else getSpamPreventionCounter s w := by
  by_cases h : w = validator <;> simp [getSpamPreventionCounter, setSpamPreventionCounter, h]

theorem validateFeeder_eq_ok {feeder validator : A} :
    validateFeeder s feeder validator = .ok () ↔
      (feeder = validator ∨ getFeederDelegation s validator = feeder) ∧
        (s.validators validator).any StakingValidator.bonded := by
  have hbonded : ((if (s.validators validator).any StakingValidator.bonded then pure ()
      else throw "validator does not exist") : Except String Unit) = .ok () ↔
        (s.validators validator).any StakingValidator.bonded := by
    rw [Except.ite_else_throw_eq_ok]
    exact and_iff_left rfl
  unfold validateFeeder
  by_cases hself : feeder = validator
  · simp [hself, hbonded]
  · by_cases hdel : getFeederDelegation s validator = feeder
    · simp [hself, hdel, hbonded]
    · simp [hself, hdel, throw, throwThe, MonadExceptOf.throw, bind, Except.bind]

theorem MsgServer.aggregateExchangeRateVote_eq_ok {exchangeRates : List (String × Dec)} {feeder validator : A}
    (h : MsgServer.aggregateExchangeRateVote s exchangeRates feeder validator = .ok s') :
    ∃ vote, validateFeeder s feeder validator = .ok () ∧ s' = setAggregateExchangeRateVote s validator vote := by
  obtain ⟨u, hfeeder, h⟩ := Except.bind_eq_ok.1 h
  obtain ⟨vote, -, h⟩ := Except.bind_eq_ok.1 h
  cases h
  exact ⟨vote, hfeeder, rfl⟩

theorem MsgServer.delegateFeedConsent_eq_ok {operator delegate : A}
    (h : MsgServer.delegateFeedConsent s operator delegate = .ok s') :
    s' = setFeederDelegation s operator delegate := by
  unfold MsgServer.delegateFeedConsent at h
  split_ifs at h
  cases h
  rfl

theorem deleteGrant_eq_ok {grantee granter : A} {msgType : MsgType}
    (h : deleteGrant s grantee granter msgType = .ok s') :
    s' = { s with grants := fun g g' t => !(g = granter ∧ g' = grantee ∧ t = msgType) && s.grants g g' t } := by
  unfold deleteGrant at h
  split_ifs at h
  cases h
  rfl

theorem dispatchActions_cons_eq_ok {grantee : A} {m : Msg A} {msgs : List (Msg A)}
    (h : dispatchActions s grantee (m :: msgs) = .ok s') :
    (m.signer = grantee ∨ s.grants m.signer grantee m.typeUrl = true) ∧
      ∃ s₁, m.handle s = .ok s₁ ∧ dispatchActions s₁ grantee msgs = .ok s' := by
  rw [dispatchActions] at h
  obtain ⟨hauth, h⟩ := Except.ite_throw_bind_eq_ok.1 h
  obtain ⟨s₁, h₁, h₂⟩ := Except.bind_eq_ok.1 h
  refine ⟨?_, s₁, h₁, h₂⟩
  by_cases hsigner : m.signer = grantee
  · exact .inl hsigner
  · exact .inr (by simpa [hsigner] using hauth)

omit [DecidableEq A] in
theorem voteAloneAnteHandle_eq_ok {msgs : List (Msg A)} :
    voteAloneAnteHandle msgs = .ok () ↔ (∀ m ∈ msgs, m.isVote) ∨ ∀ m ∈ msgs, m.isVote = false := by
  unfold voteAloneAnteHandle
  split_ifs with hmixed
  · obtain ⟨hvote, hother⟩ := hmixed
    obtain ⟨m, hm, hmv⟩ := List.any_eq_true.1 hvote
    obtain ⟨m', hm', hm'v⟩ := List.any_eq_true.1 hother
    refine iff_of_false (fun h => by cases h) ?_
    rintro (hall | hall)
    · simp [hall m' hm'] at hm'v
    · simp [hall m hm] at hmv
  · refine iff_of_true rfl ?_
    by_cases hvote : msgs.any Msg.isVote
    · -- a vote, so no other message
      left
      intro m hm
      by_contra hmv
      exact hmixed ⟨hvote, List.any_eq_true.2 ⟨m, hm, by simpa using hmv⟩⟩
    · right
      intro m hm
      by_contra hmv
      exact hvote (List.any_eq_true.2 ⟨m, hm, by simpa using hmv⟩)

theorem anteHandle_eq_ok {mode : ExecMode} {simulate : Bool} {curHeight : Int} {msgs : List (Msg A)}
    (h : anteHandle s mode simulate curHeight msgs = .ok s') :
    (∃ b, isTxGasless s msgs = .ok b) ∧ spammingPreventionAnteHandle s mode simulate curHeight msgs = .ok s' ∧
      voteAloneAnteHandle msgs = .ok () := by
  obtain ⟨b, hgasless, h⟩ := Except.bind_eq_ok.1 h
  obtain ⟨s₁, hspam, h⟩ := Except.bind_eq_ok.1 h
  obtain ⟨u, halone, h⟩ := Except.bind_eq_ok.1 h
  cases h
  exact ⟨⟨b, hgasless⟩, hspam, halone⟩

-- The ante reads only the transaction's own messages: one `MsgExec` is no vote, so it is not
-- gasless, the spam check stops at it and the vote-alone check lets it through.
theorem anteHandle_exec (s : VoteState A) (mode : ExecMode) (simulate : Bool) (curHeight : Int)
    (grantee : A) (msgs : List (Msg A)) :
    anteHandle s mode simulate curHeight [.exec grantee msgs] = .ok s := by
  have hspam : spammingPreventionAnteHandle s mode simulate curHeight [.exec grantee msgs] = .ok s := by
    unfold spammingPreventionAnteHandle
    split_ifs <;> rfl
  simp only [anteHandle, isTxGasless, isTxGaslessFrom, hspam, voteAloneAnteHandle, Msg.isVote]
  rfl

theorem oracleVoteIsGasless_eq_ok {feeder validator : A} {b : Bool}
    (h : oracleVoteIsGasless s feeder validator = .ok b) :
    b = true ∧ validateFeeder s feeder validator = .ok () ∧ s.aggregateVotes validator = none := by
  obtain ⟨u, hfeeder, h⟩ := Except.bind_eq_ok.1 h
  cases hstored : s.aggregateVotes validator with
  | none =>
    rw [hstored] at h
    cases h
    exact ⟨rfl, hfeeder, rfl⟩
  | some _ =>
    rw [hstored] at h
    cases h

theorem isTxGaslessFrom_no_vote {msgs : List (Msg A)} {b : Bool} (h : isTxGaslessFrom s msgs = .ok b)
    (hvotes : ∀ m ∈ msgs, m.isVote) {m : Msg A} (hm : m ∈ msgs) {v : A} (hv : m.voter = some v) :
    s.aggregateVotes v = none := by
  induction msgs with
  | nil => cases hm
  | cons m' rest ih =>
    cases m' with
    | aggregateExchangeRateVote exchangeRates feeder validator =>
      obtain ⟨isGasless, hvote, h⟩ := Except.bind_eq_ok.1 h
      obtain ⟨rfl, -, hnone⟩ := oracleVoteIsGasless_eq_ok hvote
      rcases List.mem_cons.1 hm with rfl | hm
      · cases hv
        exact hnone
      · simp only [Bool.not_true, Bool.false_eq_true, if_false] at h
        exact ih h (fun m'' hm'' => hvotes m'' (List.mem_cons_of_mem _ hm'')) hm
    | _ => simp [Msg.isVote] at hvotes

omit [DecidableEq A] in
theorem Msg.isVote_of_voter {m : Msg A} {v : A} (h : m.voter = some v) : m.isVote := by
  cases m with
  | aggregateExchangeRateVote => rfl
  | _ => cases h

theorem Msg.votesFor_of_isVote {m : Msg A} (hm : m.isVote) {v : A} : m.votesFor v = decide (m.voter = some v) := by
  cases m with
  | aggregateExchangeRateVote exchangeRates feeder validator => simp [Msg.votesFor, Msg.voter]
  | _ => simp [Msg.isVote] at hm

-- DeliverTx skips the spam check, so the ante leaves the state as it was.
theorem anteHandle_deliverTx_eq_ok {simulate : Bool} {curHeight : Int} {msgs : List (Msg A)}
    (h : anteHandle s .deliverTx simulate curHeight msgs = .ok s') :
    s' = s ∧ (∃ b, isTxGasless s msgs = .ok b) ∧ voteAloneAnteHandle msgs = .ok () := by
  obtain ⟨hgasless, hspam, halone⟩ := anteHandle_eq_ok h
  have hskip : spammingPreventionAnteHandle s .deliverTx simulate curHeight msgs = .ok s := by
    simp only [spammingPreventionAnteHandle, reduceCtorEq, if_false, and_false]
    rfl
  rw [hskip] at hspam
  cases hspam
  exact ⟨rfl, hgasless, halone⟩

end Specs

section Frames

-- A message that carries no vote for `v`, at any depth, leaves `v`'s vote as it was. By
-- recursion through the messages a `MsgExec` carries.
mutual
theorem Msg.handle_aggregateVotes_of_votesFor {v : A} :
    ∀ (m : Msg A) (s s' : VoteState A), m.votesFor v = false → m.handle s = .ok s' →
      s'.aggregateVotes v = s.aggregateVotes v
  | .aggregateExchangeRateVote exchangeRates feeder validator, s, s', hm, h => by
    obtain ⟨vote, -, rfl⟩ := MsgServer.aggregateExchangeRateVote_eq_ok h
    have hne : v ≠ validator := fun hv => by simp [Msg.votesFor, hv] at hm
    simp [setAggregateExchangeRateVote, hne]
  | .delegateFeedConsent operator delegate, s, s', _, h => by
    rw [MsgServer.delegateFeedConsent_eq_ok h]
    rfl
  | .exec grantee msgs, s, s', hm, h => dispatchActions_aggregateVotes_of_anyVotesFor grantee msgs s s' hm h
  | .grant granter grantee msgType, s, s', _, h => by
    cases h
    rfl
  | .revoke granter grantee msgType, s, s', _, h => by
    rw [deleteGrant_eq_ok h]
  | .other _, s, s', _, h => by
    cases h
    rfl

theorem dispatchActions_aggregateVotes_of_anyVotesFor {v : A} (grantee : A) :
    ∀ (msgs : List (Msg A)) (s s' : VoteState A), Msg.anyVotesFor v msgs = false →
      dispatchActions s grantee msgs = .ok s' → s'.aggregateVotes v = s.aggregateVotes v
  | [], s, s', _, h => by
    cases h
    rfl
  | m :: msgs, s, s', hm, h => by
    obtain ⟨-, s₁, h₁, h₂⟩ := dispatchActions_cons_eq_ok h
    simp only [Msg.anyVotesFor, Bool.or_eq_false_iff] at hm
    rw [dispatchActions_aggregateVotes_of_anyVotesFor grantee msgs s₁ s' hm.2 h₂,
      Msg.handle_aggregateVotes_of_votesFor m s s₁ hm.1 h₁]
end

def GrantsWithin (outsider : A → Prop) (s : VoteState A) : Prop :=
  ∀ granter grantee msgType, s.grants granter grantee msgType = true → outsider grantee → outsider granter

-- What a message signed by an outsider leaves as it was: `v`'s vote and feeder, and that every
-- grant an outsider holds is from an outsider.
structure Unreached (outsider : A → Prop) (v : A) (s s' : VoteState A) : Prop where
  aggregateVotes : s'.aggregateVotes v = s.aggregateVotes v
  feeder : getFeederDelegation s' v = getFeederDelegation s v
  grants : GrantsWithin outsider s'

omit [DecidableEq A] in
theorem Unreached.trans {outsider : A → Prop} {v : A} {s₁ s₂ s₃ : VoteState A}
    (h₁ : Unreached outsider v s₁ s₂) (h₂ : Unreached outsider v s₂ s₃) : Unreached outsider v s₁ s₃ :=
  ⟨h₂.aggregateVotes.trans h₁.aggregateVotes, h₂.feeder.trans h₁.feeder, h₂.grants⟩

section Outsiders

variable {outsider : A → Prop} {v : A}

theorem grantsWithin_saveGrant {s : VoteState A} (hg : GrantsWithin outsider s) {granter grantee : A}
    (hgranter : outsider granter) (msgType : MsgType) :
    GrantsWithin outsider (saveGrant s grantee granter msgType) := by
  intro g g' t hgrant hg'
  simp only [saveGrant, Bool.or_eq_true, decide_eq_true_eq] at hgrant
  rcases hgrant with ⟨rfl, -, -⟩ | hold
  · exact hgranter
  · exact hg g g' t hold hg'

theorem grantsWithin_deleteGrant {s s' : VoteState A} (hg : GrantsWithin outsider s) {granter grantee : A}
    {msgType : MsgType} (h : deleteGrant s grantee granter msgType = .ok s') : GrantsWithin outsider s' := by
  rw [deleteGrant_eq_ok h]
  intro g g' t hgrant hg'
  simp only [Bool.and_eq_true] at hgrant
  exact hg g g' t hgrant.2 hg'

-- A vote for `v` needs `v` or its feeder as signer and a delegation `v` itself; an outsider's
-- `MsgExec` runs only messages outsiders signed, since every grant it holds is an outsider's.
mutual
theorem Msg.handle_unreached (hv : ¬outsider v) :
    ∀ (m : Msg A) (s s' : VoteState A), outsider m.signer → ¬outsider (getFeederDelegation s v) →
      GrantsWithin outsider s → m.handle s = .ok s' → Unreached outsider v s s'
  | .aggregateExchangeRateVote exchangeRates feeder validator, s, s', hsigner, hfeeder, hg, h => by
    obtain ⟨vote, hvalid, rfl⟩ := MsgServer.aggregateExchangeRateVote_eq_ok h
    have hne : v ≠ validator := by
      rintro rfl
      rcases (validateFeeder_eq_ok.1 hvalid).1 with rfl | hdel
      · exact hv hsigner
      · exact hfeeder (hdel ▸ hsigner)
    exact ⟨by simp [setAggregateExchangeRateVote, hne], rfl, hg⟩
  | .delegateFeedConsent operator delegate, s, s', hsigner, _, hg, h => by
    rw [MsgServer.delegateFeedConsent_eq_ok h]
    have hne : v ≠ operator := fun he => hv (he ▸ hsigner)
    exact ⟨rfl, getFeederDelegation_setFeederDelegation_of_ne _ hne, hg⟩
  | .exec grantee msgs, s, s', hsigner, hfeeder, hg, h =>
    dispatchActions_unreached hv grantee msgs s s' hsigner hfeeder hg h
  | .grant granter grantee msgType, s, s', hsigner, _, hg, h => by
    cases h
    exact ⟨rfl, rfl, grantsWithin_saveGrant hg hsigner msgType⟩
  | .revoke granter grantee msgType, s, s', _, _, hg, h => by
    have hgrants := grantsWithin_deleteGrant hg h
    rw [deleteGrant_eq_ok h] at hgrants ⊢
    exact ⟨rfl, rfl, hgrants⟩
  | .other _, s, s', _, _, hg, h => by
    cases h
    exact ⟨rfl, rfl, hg⟩

theorem dispatchActions_unreached (hv : ¬outsider v) (grantee : A) :
    ∀ (msgs : List (Msg A)) (s s' : VoteState A), outsider grantee → ¬outsider (getFeederDelegation s v) →
      GrantsWithin outsider s → dispatchActions s grantee msgs = .ok s' → Unreached outsider v s s'
  | [], s, s', _, _, hg, h => by
    cases h
    exact ⟨rfl, rfl, hg⟩
  | m :: msgs, s, s', hgrantee, hfeeder, hg, h => by
    obtain ⟨hauth, s₁, h₁, h₂⟩ := dispatchActions_cons_eq_ok h
    -- the signer is the grantee or has granted it the message's type: an outsider either way
    have hsigner : outsider m.signer := by
      rcases hauth with he | hgrant
      · exact he ▸ hgrantee
      · exact hg _ _ _ hgrant hgrantee
    have hstep := Msg.handle_unreached hv m s s₁ hsigner hfeeder hg h₁
    exact hstep.trans (dispatchActions_unreached hv grantee msgs s₁ s' hgrantee
      (hstep.feeder ▸ hfeeder) hstep.grants h₂)
end

end Outsiders

end Frames

section Runs

variable {s s' : VoteState A}

-- Over a transaction of votes alone the spam check visits every vote: their validators are
-- distinct, none had voted at this height, each now has, and no other counter moves.
theorem checkOracleSpamming_counters {curHeight : Int} {msgs : List (Msg A)}
    (h : checkOracleSpamming s curHeight msgs = .ok s') (hvotes : ∀ m ∈ msgs, m.isVote) :
    (msgs.filterMap Msg.voter).Nodup ∧
      (∀ v ∈ msgs.filterMap Msg.voter,
        getSpamPreventionCounter s v ≠ curHeight ∧ getSpamPreventionCounter s' v = curHeight) ∧
      ∀ w ∉ msgs.filterMap Msg.voter, getSpamPreventionCounter s' w = getSpamPreventionCounter s w := by
  induction msgs generalizing s with
  | nil =>
    cases h
    simp
  | cons m rest ih =>
    cases m with
    | aggregateExchangeRateVote exchangeRates feeder validator =>
      obtain ⟨u, -, h⟩ := Except.bind_eq_ok.1 h
      dsimp only at h
      obtain ⟨hfresh, h⟩ := Except.ite_throw_bind_eq_ok.1 h
      obtain ⟨hnodup, hset, hframe⟩ := ih h fun m hm => hvotes m (List.mem_cons_of_mem _ hm)
      -- the validator's counter now holds the height, so no later vote is for it
      have hnot : validator ∉ rest.filterMap Msg.voter := fun hmem => by
        have hbefore := (hset validator hmem).1
        rw [getSpamPreventionCounter_setSpamPreventionCounter, if_pos rfl] at hbefore
        exact hbefore rfl
      simp only [List.filterMap_cons, Msg.voter]
      refine ⟨List.nodup_cons.2 ⟨hnot, hnodup⟩, ?_, ?_⟩
      · intro v hv
        rcases List.mem_cons.1 hv with rfl | hv
        · refine ⟨hfresh, ?_⟩
          rw [hframe v hnot, getSpamPreventionCounter_setSpamPreventionCounter, if_pos rfl]
        · have hne : v ≠ validator := fun he => hnot (he ▸ hv)
          obtain ⟨hbefore, hafter⟩ := hset v hv
          rw [getSpamPreventionCounter_setSpamPreventionCounter, if_neg hne] at hbefore
          exact ⟨hbefore, hafter⟩
      · intro w hw
        rw [List.mem_cons, not_or] at hw
        rw [hframe w hw.2, getSpamPreventionCounter_setSpamPreventionCounter, if_neg hw.1]
    | _ => simp [Msg.isVote] at hvotes

theorem checkOracleSpamming_of_no_vote {curHeight : Int} {msgs : List (Msg A)}
    (hvotes : ∀ m ∈ msgs, m.isVote = false) : checkOracleSpamming s curHeight msgs = .ok s := by
  cases msgs with
  | nil => rfl
  | cons m rest =>
    cases m with
    | aggregateExchangeRateVote => simp [Msg.isVote] at hvotes
    | _ => rfl

omit [DecidableEq A] in
theorem filterMap_voter_eq_nil {msgs : List (Msg A)} (hvotes : ∀ m ∈ msgs, m.isVote = false) :
    msgs.filterMap Msg.voter = [] := by
  rw [List.filterMap_eq_nil_iff]
  intro m hm
  cases hv : m.voter with
  | none => rfl
  | some v =>
    have hfalse := hvotes m hm
    rw [Msg.isVote_of_voter hv] at hfalse
    cases hfalse

theorem checkTx_counters {curHeight : Int} {msgs : List (Msg A)}
    (h : anteHandle s .checkTx false curHeight msgs = .ok s') :
    (msgs.filterMap Msg.voter).Nodup ∧
      (∀ v ∈ msgs.filterMap Msg.voter,
        getSpamPreventionCounter s v ≠ curHeight ∧ getSpamPreventionCounter s' v = curHeight) ∧
      ∀ w ∉ msgs.filterMap Msg.voter, getSpamPreventionCounter s' w = getSpamPreventionCounter s w := by
  obtain ⟨-, hspam, halone⟩ := anteHandle_eq_ok h
  have hcheck : checkOracleSpamming s curHeight msgs = .ok s' := by
    simpa [spammingPreventionAnteHandle] using hspam
  -- the vote-alone check leaves a transaction of votes alone or one without votes
  rcases voteAloneAnteHandle_eq_ok.1 halone with hall | hnone
  · exact checkOracleSpamming_counters hcheck hall
  · rw [checkOracleSpamming_of_no_vote hnone] at hcheck
    cases hcheck
    simp [filterMap_voter_eq_nil hnone]

theorem mem_checkTxs_exec (curHeight : Int) {grantee : A} {msgs : List (Msg A)} :
    ∀ {txs : List (List (Msg A))} (s : VoteState A), [.exec grantee msgs] ∈ txs →
      [.exec grantee msgs] ∈ (checkTxs s curHeight txs).2
  | tx :: txs, s, hmem => by
    unfold checkTxs
    rcases List.mem_cons.1 hmem with rfl | hmem
    · rw [anteHandle_exec]
      exact List.mem_cons_self
    · cases anteHandle s .checkTx false curHeight tx with
      | ok s₁ => exact List.mem_cons_of_mem _ (mem_checkTxs_exec curHeight s₁ hmem)
      | error e => exact mem_checkTxs_exec curHeight s hmem

-- CheckTx sees only top-level votes: those it lets through are for distinct validators that had not
-- voted at the height, while a transaction of one `MsgExec` always gets through.
theorem check_txs_one_vote_per_height (s : VoteState A) (curHeight : Int) (txs : List (List (Msg A))) :
    ((checkTxs s curHeight txs).2.flatMap (·.filterMap Msg.voter)).Nodup ∧
      (∀ v ∈ (checkTxs s curHeight txs).2.flatMap (·.filterMap Msg.voter),
        getSpamPreventionCounter s v ≠ curHeight) ∧
      ∀ grantee msgs, [.exec grantee msgs] ∈ txs → [.exec grantee msgs] ∈ (checkTxs s curHeight txs).2 := by
  suffices hvotes : ((checkTxs s curHeight txs).2.flatMap (·.filterMap Msg.voter)).Nodup ∧
      ∀ v ∈ (checkTxs s curHeight txs).2.flatMap (·.filterMap Msg.voter),
        getSpamPreventionCounter s v ≠ curHeight from
    ⟨hvotes.1, hvotes.2, fun grantee msgs hmem => mem_checkTxs_exec curHeight s hmem⟩
  induction txs generalizing s with
  | nil => simp [checkTxs]
  | cons msgs txs ih =>
    unfold checkTxs
    cases hante : anteHandle s .checkTx false curHeight msgs with
    | error e => exact ih s
    | ok s' =>
      obtain ⟨hn, hfresh, hframe⟩ := checkTx_counters hante
      obtain ⟨hnodup, hrest⟩ := ih s'
      -- a later accepted vote is for a validator whose counter does not hold the height
      have hlater : ∀ v ∈ (checkTxs s' curHeight txs).2.flatMap (·.filterMap Msg.voter),
          v ∉ msgs.filterMap Msg.voter := fun v hv hmem => hrest v hv (hfresh v hmem).2
      simp only [List.flatMap_cons]
      refine ⟨List.nodup_append.2 ⟨hn, hnodup, fun a ha b hb hab => hlater b hb (hab ▸ ha)⟩, ?_⟩
      intro v hv
      rcases List.mem_append.1 hv with hv | hv
      · exact (hfresh v hv).1
      · rw [← hframe v (hlater v hv)]
        exact hrest v hv

-- A top-level vote for a validator that already has one does not get past the ante: the
-- gasless check finds the stored vote, or the vote-alone check has found no vote at all.
theorem votesFor_eq_false_of_ante {msgs : List (Msg A)} {b : Bool} {v : A}
    {vote : AggregateVote A} (hgasless : isTxGasless s msgs = .ok b)
    (halone : voteAloneAnteHandle msgs = .ok ()) (hv : s.aggregateVotes v = some vote)
    {m : Msg A} (hm : m ∈ msgs) (hvote : m.isVote) : m.votesFor v = false := by
  rw [Msg.votesFor_of_isVote hvote, decide_eq_false_iff_not]
  intro hmv
  rcases voteAloneAnteHandle_eq_ok.1 halone with hall | hnovote
  · rw [isTxGasless, if_neg (List.ne_nil_of_mem hm)] at hgasless
    rw [isTxGaslessFrom_no_vote hgasless hall hm hmv] at hv
    cases hv
  · rw [hnovote m hm] at hvote
    cases hvote

theorem deliverTx_keeps_stored_vote {curHeight : Int} {msgs : List (Msg A)}
    (h : deliverTx s curHeight msgs = .ok s') {v : A} {vote : AggregateVote A}
    (hexec : ∀ m ∈ msgs, m.isVote = false → m.votesFor v = false)
    (hv : s.aggregateVotes v = some vote) : s'.aggregateVotes v = some vote := by
  obtain ⟨s₁, hante, hrun⟩ := Except.bind_eq_ok.1 h
  obtain ⟨rfl, ⟨b, hgasless⟩, halone⟩ := anteHandle_deliverTx_eq_ok hante
  have hnone : ∀ m ∈ msgs, m.votesFor v = false := by
    intro m hm
    cases hvote : m.isVote with
    | false => exact hexec m hm hvote
    | true => exact votesFor_eq_false_of_ante hgasless halone hv hm hvote
  refine List.foldlM_except_induction (fun t => t.aggregateVotes v = some vote) hv ?_ hrun
  intro t m t' hm ht hstep
  exact (Msg.handle_aggregateVotes_of_votesFor m t t' (hnone m hm) hstep).trans ht

theorem deliverTx_unreached {outsider : A → Prop} {v : A} (hv : ¬outsider v) {s₀ : VoteState A}
    (hfeeder : ¬outsider (getFeederDelegation s₀ v)) {curHeight : Int} {msgs : List (Msg A)}
    (hsigned : ∀ m ∈ msgs, outsider m.signer) (hs : Unreached outsider v s₀ s)
    (h : deliverTx s curHeight msgs = .ok s') : Unreached outsider v s₀ s' := by
  obtain ⟨s₁, hante, hrun⟩ := Except.bind_eq_ok.1 h
  obtain ⟨rfl, -, -⟩ := anteHandle_deliverTx_eq_ok hante
  refine List.foldlM_except_induction (Unreached outsider v s₀) hs ?_ hrun
  intro u m u' hm hu hhandle
  exact hu.trans (Msg.handle_unreached hv m u u' (hsigned m hm) (hu.feeder ▸ hfeeder) hu.grants
    hhandle)

def twoValidatorState : VoteState Nat where
  feederDelegations v := if v = 1 then some 7 else none
  aggregateVotes v := if v = 1 then some ⟨1, [("uatom", Dec.one)]⟩ else none
  spamPreventionCounters _ := none
  validators v := if v < 2 then some ⟨true, false, 10⟩ else none
  voteTargets := ["uatom"]
  grants _ _ _ := false

-- The feeder replaces the stored vote mid-period by nesting it in its own `MsgExec`: no grant is
-- needed, no ante check reads a nested message, and the spam check moves no counter.
theorem feeder_exec_replaces_stored_vote (curHeight : Int) {feeder validator : A}
    {exchangeRates : List (String × Dec)} {vote : AggregateVote A}
    (hfeeder : validateFeeder s feeder validator = .ok ())
    (hvote : SeiChain.Oracle.aggregateExchangeRateVote s.voteTargets validator exchangeRates = .ok vote) :
    anteHandle s .checkTx false curHeight
        [.exec feeder [.aggregateExchangeRateVote exchangeRates feeder validator]] = .ok s ∧
      deliverTx s curHeight [.exec feeder [.aggregateExchangeRateVote exchangeRates feeder validator]] =
        .ok (setAggregateExchangeRateVote s validator vote) := by
  refine ⟨anteHandle_exec s .checkTx false curHeight feeder _, ?_⟩
  -- the one message is the grantee's own, so the grant check is skipped
  have hdispatch : dispatchActions s feeder [.aggregateExchangeRateVote exchangeRates feeder validator] =
      .ok (setAggregateExchangeRateVote s validator vote) := by
    simp only [dispatchActions, Msg.signer, ne_eq, not_true_eq_false, false_and, if_false, Msg.handle,
      MsgServer.aggregateExchangeRateVote, hfeeder, hvote]
    rfl
  simp only [deliverTx, anteHandle_exec, List.foldlM_cons, List.foldlM_nil, Msg.handle, Except.ok_bind,
    hdispatch]
  rfl

theorem feeder_seven_replaces_vote_of_one :
    validateFeeder twoValidatorState 7 1 = .ok () ∧
      SeiChain.Oracle.aggregateExchangeRateVote twoValidatorState.voteTargets 1 [("uatom", Dec.ofInt 2)] =
        .ok ⟨1, [("uatom", Dec.ofInt 2)]⟩ ∧
      (anteHandle twoValidatorState .checkTx false 3
          [.exec 7 [.aggregateExchangeRateVote [("uatom", Dec.ofInt 2)] 7 1]] = .ok twoValidatorState ∧
        deliverTx twoValidatorState 3 [.exec 7 [.aggregateExchangeRateVote [("uatom", Dec.ofInt 2)] 7 1]] =
          .ok (setAggregateExchangeRateVote twoValidatorState 1 ⟨1, [("uatom", Dec.ofInt 2)]⟩)) := by
  have hfeeder : validateFeeder twoValidatorState 7 1 = .ok () := rfl
  have hvote : SeiChain.Oracle.aggregateExchangeRateVote twoValidatorState.voteTargets 1
      [("uatom", Dec.ofInt 2)] = .ok ⟨1, [("uatom", Dec.ofInt 2)]⟩ := rfl
  exact ⟨hfeeder, hvote, feeder_exec_replaces_stored_vote 3 hfeeder hvote⟩

end Runs

end SeiChain.Oracle
