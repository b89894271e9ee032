/-
One command on one machine: `SelfhostedSession.exec` with an op-stream client, or one `call` of
another operation, the transport in between and the runner's handlers (`ops.rs` and `legacy.rs`,
`serve_op_start`, `serve_exec`).

A request travels under the inbox its reply goes to. The transport may drop, repeat and delay both,
and a reply may arrive that cannot be decoded. Of the runner's registry it is kept which ids are
known and which have a tombstone; a known id is never forgotten.
-/
import OpenGeni.Runtime.ControlRpc

namespace OpenGeni.Runtime

open Lib

/-! ## State -/

/-- A request on its way: an OpStart under its op id, or an operation under its request id. -/
structure Request where
  inbox : ℕ
  id : ℕ
  start : Bool
  deriving DecidableEq

/-- Where the client is: `OpConsumer.run` up to its attach, then `execLegacy` or `call`. -/
inductive CommandPhase
  | subscribing
  | starting (retries : StartRetries)
  | streaming
  | calling (retries : CallRetries)
  | finished
  deriving DecidableEq

structure Exchange where
  phase : CommandPhase
  /-- The inbox of the request that the client waits on. -/
  waiting : Option ℕ := none
  /-- The id that the client asks under, until it turns to another. -/
  current : Option ℕ := none
  nextInbox : ℕ := 0
  issued : List ℕ := []
  requests : List Request := []
  replies : List (ℕ × ControlReply) := []
  known : List ℕ := []
  tombstones : List ℕ := []
  /-- The ids under which the machine has run the command, in order. -/
  executed : List ℕ := []
  /-- The runner has answered an OpStart as cancelled before it began. -/
  bornCancelled : Bool := false
  deriving DecidableEq

/-! ## The client -/

def Exchange.react (kind : OpKind) (s : Exchange) (reply : ControlReply) : Exchange :=
  let answered := { s with waiting := none }
  match s.phase with
  | .starting retries =>
    match startNext retries reply with
    | .accepted => { answered with phase := .streaming }
    | .again retries' => { answered with phase := .starting retries' }
    | .fallback => { answered with phase := .calling {}, current := none }
    | .failed => { answered with phase := .finished }
  | .calling retries =>
    match callNext kind retries reply with
    | .again retries' => { answered with phase := .calling retries', current := none }
    | .done => { answered with phase := .finished }
  | _ => answered

/-- The client turns to another request id: the fallback of an OpStart, a retry of a call. -/
def Exchange.turnsAway (kind : OpKind) (s : Exchange) (reply : ControlReply) : Bool := match s.phase with
  | .starting retries => startNext retries reply == .fallback
  | .calling retries => callNext kind retries reply != .done
  | _ => false

/-- The id of the next request: an OpStart keeps the op id, an attempt of a call has a fresh one. -/
def Exchange.mayIssue (opId : ℕ) (s : Exchange) (id : ℕ) : Bool := s.waiting.isNone && match s.phase with
    | .starting _ => id == opId
    | .calling _ => id != opId && !s.issued.contains id && !s.known.contains id && !s.tombstones.contains id
    | _ => false

def Exchange.issue (s : Exchange) (id : ℕ) : Exchange := { s with
    waiting := some s.nextInbox
    current := some id
    nextInbox := s.nextInbox + 1
    issued := id :: s.issued }

def Exchange.post (s : Exchange) (id : ℕ) : Exchange := { s.issue id with
    requests := s.requests ++ [{ inbox := s.nextInbox, id, start := s.phase matches .starting _ }] }

/-- What `NatsControlRpc.request` answers with no connection or no responder. -/
def neverSentReply : ControlReply := .error { code := .agentOffline, neverSentDetail := true }

/-! ## The machine -/

/-- Answers that are given before the registry is asked: the epoch fence, the breaker, a handler
that the runner lacks, an op id that is no subject token. -/
inductive Refusal
  | fenced | draining | unsupported | protocol
  deriving DecidableEq

def Refusal.reply : Refusal → ControlReply
  | .fenced => .error { code := .fenced }
  | .draining => .error { code := .draining }
  | .unsupported => .error { code := .unsupported }
  | .protocol => .error { code := .protocol }

/-- What the handlers find: whether the spawn succeeds, the state of a known op, the answer of a
call that was run (a stashed one for a known id, if it has settled). -/
structure Finding where
  spawns : Bool
  state : OpState
  settled : Bool
  outcome : Option AgentFault
  deriving DecidableEq

def Finding.reply (f : Finding) : ControlReply := match f.outcome with
  | none => .result
  | some err => .error err

/-- The reply of the operation's own handler: not one that the fence, the breaker or the transport gives. -/
def Finding.Given (f : Finding) : Prop :=
  ∀ err ∈ f.outcome, err.code ≠ .draining ∧ err.code ≠ .agentOffline ∧ err.code ≠ .fenced

instance (f : Finding) : Decidable f.Given :=
  inferInstanceAs (Decidable (∀ err ∈ f.outcome, _))

/-- The request is served by the op registry: OpStart, exec and git are. -/
def Request.registered (kind : OpKind) (r : Request) : Bool := r.start || kind.engineJob

def Exchange.runs (kind : OpKind) (s : Exchange) (r : Request) (f : Finding) : Bool :=
  f.spawns && !(r.registered kind && (s.tombstones.contains r.id || s.known.contains r.id))

def Exchange.answer (kind : OpKind) (s : Exchange) (r : Request) (f : Finding) : ControlReply :=
  if r.registered kind && s.tombstones.contains r.id then
    -- `BornCancelled`
    if r.start then .opStarted false .complete else .error { code := .os }
  else if r.registered kind && s.known.contains r.id then
    -- `Known`; `duplicate_reply` of an op that has not settled is DRAINING
    if r.start then .opStarted true f.state
    else if f.settled then f.reply
    else .error { code := .draining }
  else if r.start then
    -- `SpawnFailed` is known from then on
    if f.spawns then .opStarted true .running else .error (f.outcome.getD { code := .os })
  else f.reply

def Exchange.serve (kind : OpKind) (s : Exchange) (r : Request) (f : Finding) : Exchange := { s with
    replies := s.replies ++ [(r.inbox, s.answer kind r f)]
    known := if r.registered kind && !s.tombstones.contains r.id && !s.known.contains r.id then r.id :: s.known
      else s.known
    executed := if s.runs kind r f then s.executed ++ [r.id] else s.executed
    bornCancelled := s.bornCancelled || r.start && s.tombstones.contains r.id }

/-! ## Steps -/

inductive CommandEvent
  | subscribed
  | subscribeFailed
  | send (id : ℕ)
  | notSent (id : ℕ)
  | repeatRequest (k : ℕ)
  | dropRequest (k : ℕ)
  | refuse (k : ℕ) (refusal : Refusal)
  | serve (k : ℕ) (finding : Finding)
  | dropReply (k : ℕ)
  | receive (k : ℕ)
  | undecodable (k : ℕ) (text : List Char)
  | requestError (err : TransportError)
  | cancel (id : ℕ)
  | forgetTombstone (id : ℕ)
  deriving DecidableEq

def Exchange.heard (s : Exchange) : CommandEvent → Option ControlReply
  | .notSent _ => some neverSentReply
  | .receive k => s.replies[k]?.bind fun reply => if s.waiting = some reply.1 then some reply.2 else none
  | .undecodable k text => s.replies[k]?.bind fun reply =>
    if s.waiting = some reply.1 then some (.error (requestFault { code := none, message := text })) else none
  | .requestError err => some (.error (requestFault err))
  | _ => none

def Exchange.step (kind : OpKind) (opId : ℕ) (s : Exchange) (e : CommandEvent) : Option Exchange := match e with
  | .subscribed => if s.phase = .subscribing then some { s with phase := .starting {} } else none
  | .subscribeFailed => if s.phase = .subscribing then some { s with phase := .calling {} } else none
  | .send id => if s.mayIssue opId id then some (s.post id) else none
  | .notSent id => if s.mayIssue opId id then some ((s.issue id).react kind neverSentReply) else none
  | .repeatRequest k => s.requests[k]?.map fun r => { s with requests := s.requests ++ [r] }
  | .dropRequest k => some { s with requests := s.requests.eraseIdx k }
  | .refuse k refusal => s.requests[k]?.map fun r =>
    { s with requests := s.requests.eraseIdx k, replies := s.replies ++ [(r.inbox, refusal.reply)] }
  | .serve k finding => s.requests[k]?.bind fun r =>
    if finding.Given then some ({ s with requests := s.requests.eraseIdx k }.serve kind r finding) else none
  | .dropReply k => some { s with replies := s.replies.eraseIdx k }
  | .receive k | .undecodable k _ =>
    let rest := { s with replies := s.replies.eraseIdx k }
    some (match s.heard e with
      | some reply => rest.react kind reply
      | none => rest)
  | .requestError err =>
    -- of a request that left: a timeout, a connection that closed
    if s.waiting.isSome ∧ isNoRespondersError err = false then
      some (s.react kind (.error (requestFault err)))
    else none
  | .cancel id => some (if s.known.contains id then s else { s with tombstones := id :: s.tombstones })
  | .forgetTombstone id => some { s with tombstones := s.tombstones.filter (· != id) }

def CommandStep (kind : OpKind) (opId : ℕ) (s : Exchange) (e : CommandEvent) (t : Exchange) : Prop :=
  s.step kind opId e = some t

/-- A command begins: an `exec` over the op stream, or a `call`. Its op id may be known or cancelled. -/
def CommandStart (kind : OpKind) (s : Exchange) : Prop :=
  ((kind = .exec ∧ s.phase = .subscribing) ∨ s.phase = .calling {}) ∧ s.waiting = none ∧ s.current = none ∧
    s.requests = [] ∧ s.replies = [] ∧ s.executed = [] ∧ s.bornCancelled = false ∧
    ∀ id ∈ s.tombstones, s.known.contains id = false

instance (kind : OpKind) (s : Exchange) : Decidable (CommandStart kind s) :=
  inferInstanceAs (Decidable (_ ∧ _))

/-- The command was run once at most, and not at all once it is cancelled before it began. -/
def AtMostOnce (s : Exchange) : Prop := s.executed.length ≤ 1 ∧ (s.bornCancelled = true → s.executed = [])

instance (s : Exchange) : Decidable (AtMostOnce s) :=
  inferInstanceAs (Decidable (_ ∧ _))

/-! ## When it is -/

/-- The runner serves a request in turn: its registry knows the id, or the client asks under it,
nothing was run for it, and a tombstone that answered it stands. -/
def Exchange.InTurn (kind : OpKind) (s : Exchange) (r : Request) : Prop :=
  (r.registered kind = true ∧ s.known.contains r.id = true) ∨
    (s.current = some r.id ∧ s.executed.contains r.id = false ∧
      (s.bornCancelled = true → r.registered kind = true ∧ s.tombstones.contains r.id = true))

/-- The client turns to another request id only where nothing was run and nothing was cancelled,
and the runner serves requests in turn. -/
def Exchange.Clean (kind : OpKind) (s : Exchange) (e : CommandEvent) : Prop :=
  (∀ reply ∈ s.heard e, s.turnsAway kind reply = true → s.executed = [] ∧ s.bornCancelled = false) ∧ match e with
    | .serve k _ => ∀ r ∈ s.requests[k]?, s.InTurn kind r
    | _ => True

instance (kind : OpKind) (s : Exchange) (r : Request) : Decidable (s.InTurn kind r) :=
  inferInstanceAs (Decidable (_ ∨ _))

instance (kind : OpKind) (s : Exchange) (e : CommandEvent) : Decidable (s.Clean kind e) :=
  match e with
  | .serve _ _ => inferInstanceAs (Decidable (_ ∧ _))
  | .subscribed | .subscribeFailed | .send _ | .notSent _ | .repeatRequest _ | .dropRequest _ | .refuse _ _
  | .dropReply _ | .receive _ | .undecodable _ _ | .requestError _ | .cancel _ | .forgetTombstone _ =>
    inferInstanceAs (Decidable (_ ∧ True))

structure Exchange.Sound (opId : ℕ) (s : Exchange) : Prop where
  executed : s.executed = [] ∨ ∃ id, s.executed = [id] ∧ s.current = some id
  cancelled : s.bornCancelled = true → s.executed = []
  tombstones : ∀ id ∈ s.tombstones, s.known.contains id = false
  /-- No request is on its way before the op stream is subscribed. -/
  subscribing : s.phase = .subscribing → s.current = none
  starting : ∀ retries, s.phase = .starting retries → s.current = none ∨ s.current = some opId
  calling : ∀ retries, s.phase = .calling retries → s.waiting = none → s.current = none

theorem CommandStart.sound {kind : OpKind} {opId : ℕ} {s : Exchange} (h : CommandStart kind s) : s.Sound opId := by
  obtain ⟨hphase, -, hcurrent, -, -, hexecuted, hcancelled, htombstones⟩ := h
  exact
    { executed := .inl hexecuted, cancelled := fun _ => hexecuted, tombstones := htombstones
      subscribing := fun _ => hcurrent, starting := fun _ _ => .inl hcurrent, calling := fun _ _ _ => hcurrent }

namespace Exchange

variable {kind : OpKind} {opId : ℕ} {s t : Exchange}

theorem Sound.atMostOnce (h : s.Sound opId) : AtMostOnce s := by
  refine ⟨?_, h.cancelled⟩
  rcases h.executed with hnone | ⟨id, hone, -⟩
  · rw [hnone]
    exact Nat.zero_le 1
  · rw [hone, List.length_singleton]

theorem Sound.executed_of_none (h : s.Sound opId) (hnone : s.current = none) : s.executed = [] := by
  rcases h.executed with hexecuted | ⟨id, -, hcurrent⟩
  · exact hexecuted
  · rw [hnone] at hcurrent
    cases hcurrent

theorem Sound.mail (h : s.Sound opId) (requests : List Request) (replies : List (ℕ × ControlReply)) :
    { s with requests := requests, replies := replies }.Sound opId :=
  { h with }

theorem Sound.issue (h : s.Sound opId) {id : ℕ} (hid : s.mayIssue opId id = true) : (s.issue id).Sound opId := by
  unfold mayIssue at hid
  rw [Bool.and_eq_true, Option.isNone_iff_eq_none] at hid
  obtain ⟨hwaiting, hid⟩ := hid
  have hexecuted : s.executed = [] ∨ ∃ id', s.executed = [id'] ∧ some id = some id' := by
    cases hphase : s.phase with
    | starting retries =>
      rw [hphase] at hid
      rcases h.executed with hnone | ⟨id', hone, hcurrent⟩
      · exact .inl hnone
      · -- an OpStart is issued again under the op id
        rcases h.starting retries hphase with hfree | hop
        · rw [hfree] at hcurrent
          cases hcurrent
        · refine .inr ⟨id', hone, ?_⟩
          rw [← hcurrent, hop, eq_of_beq hid]
    | calling retries => exact .inl (h.executed_of_none (h.calling retries hphase hwaiting))
    | _ => rw [hphase] at hid; cases hid
  refine { h with executed := hexecuted, subscribing := ?_, starting := ?_, calling := ?_ }
  · intro hphase
    change s.phase = _ at hphase
    rw [hphase] at hid
    cases hid
  · intro retries hphase
    change s.phase = _ at hphase
    rw [hphase] at hid
    exact .inr (congrArg some (eq_of_beq hid))
  · intro retries _ hnone
    cases hnone

theorem Sound.settle (h : s.Sound opId) {phase : CommandPhase} (hphase : phase = .streaming ∨ phase = .finished) :
    { s with waiting := none, phase := phase }.Sound opId := by
  refine { h with subscribing := ?_, starting := ?_, calling := ?_ }
  · intro hsubscribing
    rcases hphase with rfl | rfl <;> cases hsubscribing
  · intro retries hstarting
    rcases hphase with rfl | rfl <;> cases hstarting
  · intro retries hcalling
    rcases hphase with rfl | rfl <;> cases hcalling

theorem Sound.turn (h : s.Sound opId) (hexecuted : s.executed = []) (retries : CallRetries) :
    { s with waiting := none, phase := .calling retries, current := none }.Sound opId := by
  refine { h with executed := .inl hexecuted, subscribing := ?_, starting := ?_, calling := fun _ _ _ => rfl }
  · intro hsubscribing
    cases hsubscribing
  · intro retries' hstarting
    cases hstarting

theorem Sound.react (h : s.Sound opId) {reply : ControlReply}
    (hturn : s.turnsAway kind reply = true → s.executed = [] ∧ s.bornCancelled = false) :
    (s.react kind reply).Sound opId := by
  unfold turnsAway at hturn
  unfold Exchange.react
  -- a client that waits on nothing ignores the answer
  have hidle : (∀ retries, s.phase ≠ .calling retries) → { s with waiting := none }.Sound opId := by
    intro hother
    exact { h with calling := fun retries hcalling => absurd hcalling (hother retries) }
  split
  case h_1 retries hphase =>
    rw [hphase] at hturn
    split
    case h_1 hnext => exact h.settle (.inl rfl)
    case h_2 retries' hnext =>
      refine { h with subscribing := ?_, starting := fun _ _ => h.starting retries hphase, calling := ?_ }
      · intro hsubscribing
        cases hsubscribing
      · intro _ hcalling
        cases hcalling
    case h_3 hnext => exact h.turn (hturn (beq_iff_eq.2 hnext)).1 {}
    case h_4 hnext => exact h.settle (.inr rfl)
  case h_2 retries hphase =>
    rw [hphase] at hturn
    split
    case h_1 retries' hnext =>
      refine h.turn (hturn ?_).1 retries'
      dsimp only
      rw [hnext]
      rfl
    case h_2 hnext => exact h.settle (.inr rfl)
  case h_3 hstarting hcalling => exact hidle hcalling

theorem Sound.serve (h : s.Sound opId) {r : Request} (hturn : s.InTurn kind r) (f : Finding) :
    (s.serve kind r f).Sound opId := by
  have htombstones : ∀ id ∈ s.tombstones, (s.serve kind r f).known.contains id = false := by
    intro id hid
    unfold Exchange.serve
    dsimp only
    split_ifs with hnew
    · simp only [Bool.and_eq_true, Bool.not_eq_true', List.contains_eq_mem, decide_eq_false_iff_not] at hnew
      have hne : id ≠ r.id := fun heq => hnew.1.2 (heq ▸ hid)
      rw [List.contains_cons, h.tombstones id hid, Bool.or_false]
      exact beq_false_of_ne hne
    · exact h.tombstones id hid
  rcases hturn with ⟨hregistered, hknown⟩ | ⟨hcurrent, hfresh, hcancelled⟩
  · -- A known id is neither run again nor cancelled.
    have hstands : s.tombstones.contains r.id = false := by
      rw [Bool.eq_false_iff]
      intro htomb
      rw [h.tombstones r.id (List.contains_iff_mem.1 htomb)] at hknown
      cases hknown
    have hruns : s.runs kind r f = false := by
      unfold runs
      rw [hregistered, hknown, Bool.or_true, Bool.and_true, Bool.not_true, Bool.and_false]
    refine { h with executed := ?_, cancelled := ?_, tombstones := htombstones }
    · unfold Exchange.serve
      rw [hruns]
      exact h.executed
    · unfold Exchange.serve
      rw [hruns, hstands, Bool.and_false, Bool.or_false]
      exact h.cancelled
  · -- Nothing was run yet, since what was run was run under the id the client asks under.
    have hnone : s.executed = [] := by
      rcases h.executed with hnone | ⟨id, hone, hid⟩
      · exact hnone
      · cases hcurrent.symm.trans hid
        rw [hone] at hfresh
        simp at hfresh
    refine { h with executed := ?_, cancelled := ?_, tombstones := htombstones }
    · unfold Exchange.serve
      dsimp only
      split_ifs
      · exact .inr ⟨r.id, by rw [hnone, List.nil_append], hcurrent⟩
      · exact .inl hnone
    · intro hborn
      unfold Exchange.serve at hborn ⊢
      -- cancelled now or before: either way its tombstone stands
      have hstands : r.registered kind = true ∧ s.tombstones.contains r.id = true := by
        rcases (Bool.or_eq_true _ _).mp hborn with hbefore | hnow
        · exact hcancelled hbefore
        · rw [Bool.and_eq_true] at hnow
          refine ⟨?_, hnow.2⟩
          unfold Request.registered
          rw [hnow.1, Bool.true_or]
      have hruns : s.runs kind r f = false := by
        unfold runs
        rw [hstands.1, hstands.2, Bool.true_or, Bool.and_true, Bool.not_true, Bool.and_false]
      rw [hruns]
      exact hnone

theorem Sound.begin (h : s.Sound opId) (hphase : s.phase = .subscribing) {phase : CommandPhase}
    (hnext : phase ≠ .subscribing) : { s with phase := phase }.Sound opId := by
  have hnone : s.current = none := h.subscribing hphase
  exact { h with
      subscribing := fun hsubscribing => absurd hsubscribing hnext
      starting := fun _ _ => .inl hnone
      calling := fun _ _ _ => hnone }

/-- **Step.** A clean step keeps what holds on the way. -/
theorem Sound.step {e : CommandEvent} (hstep : CommandStep kind opId s e t) (h : s.Sound opId)
    (hclean : s.Clean kind e) : t.Sound opId := by
  obtain ⟨hturn, hserve⟩ := hclean
  unfold CommandStep Exchange.step at hstep
  cases e with
  | subscribed | subscribeFailed =>
    split_ifs at hstep with hphase
    cases hstep
    exact h.begin hphase (by decide)
  | send id =>
    dsimp only at hstep
    split_ifs at hstep with hid
    cases hstep
    exact (h.issue hid).mail _ _
  | notSent id =>
    dsimp only at hstep
    split_ifs at hstep with hid
    cases hstep
    exact (h.issue hid).react (hturn neverSentReply rfl)
  | repeatRequest | refuse =>
    obtain ⟨r, -, rfl⟩ := Option.map_eq_some_iff.1 hstep
    exact h.mail _ _
  | dropRequest | dropReply =>
    cases hstep
    exact h.mail _ _
  | serve k finding =>
    obtain ⟨r, hr, hgiven⟩ := Option.bind_eq_some_iff.1 hstep
    split_ifs at hgiven
    cases hgiven
    have hinTurn : s.InTurn kind r := hserve r hr
    exact (h.mail (s.requests.eraseIdx k) s.replies).serve hinTurn finding
  | receive k =>
    cases hstep
    have hrest := h.mail s.requests (s.replies.eraseIdx k)
    split
    case h_1 reply hheard => exact hrest.react (hturn reply hheard)
    case h_2 => exact hrest
  | undecodable k text =>
    cases hstep
    have hrest := h.mail s.requests (s.replies.eraseIdx k)
    split
    case h_1 reply hheard => exact hrest.react (hturn reply hheard)
    case h_2 => exact hrest
  | requestError err =>
    dsimp only at hstep
    split_ifs at hstep
    cases hstep
    exact h.react (hturn _ rfl)
  | cancel id =>
    cases hstep
    split_ifs with hknown
    · exact h
    · refine { h with tombstones := ?_ }
      intro id' hid'
      rcases List.mem_cons.1 hid' with rfl | hbefore
      · exact Bool.eq_false_iff.2 hknown
      · exact h.tombstones id' hbefore
  | forgetTombstone id =>
    cases hstep
    exact { h with tombstones := fun id' hid' => h.tombstones id' (List.mem_filter.1 hid').1 }

end Exchange

end OpenGeni.Runtime
