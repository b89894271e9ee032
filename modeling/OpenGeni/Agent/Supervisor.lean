/-
The connection loop of one link and its clean stop
(`opengeni-agent/src/supervisor.rs`, `run_link`, `serve_one_connection`,
`serve_connection_generation`).

The stop is a latched flag and an edge-triggered wake. The flag is read at three
places: at the top of `run_link`, behind the dial, and at the top of the serve loop.
The wake reaches a select only once that select was polled; a request before that is
left to the next place that reads the flag. So the program counter tells a select that
was entered (`.._arm`) from one that was polled, and a polled one may still take another
branch with its wake pending.

Between the hello and the serve loop there are three awaits, each with an early return,
and the serve loop has two more ways out. All five leave without an announcement, the
client still up or not. What the network answers is the event.
-/
import OpenGeni.Lib.Run

namespace OpenGeni.Agent

open OpenGeni.Lib

inductive ConnectionOutcome
  | clean_shutdown
  | disconnected
deriving DecidableEq

inductive AgentMessage
  | hello
  | heartbeat (seq : ℕ)
  | going_offline
deriving DecidableEq

inductive LinkPc
  /-- The top of `run_link`. -/
  | top
  /-- The dial's select, before its first poll and behind it. -/
  | dial_arm
  | dialing
  | connected
  | hello
  | hello_flush
  | subscribe
  | ack_subscribe
  | bulk_dial
  | serve_top
  | serve_arm
  | serving
  | heartbeat
  /-- Behind the serve loop, with its outcome: accepted work is being stopped. -/
  | closing (outcome : ConnectionOutcome)
  | announce
  | backoff_arm
  | backoff
  | returned
deriving DecidableEq

def LinkPc.waits : LinkPc → Bool
  | .dialing | .serving | .backoff => true
  | _ => false

def LinkPc.has_client : LinkPc → Bool
  | .top | .dial_arm | .dialing | .backoff_arm | .backoff | .returned => false
  | _ => true

/-- Whether a connection generation is over, so that nothing can be published on its
connection any more. -/
def LinkPc.ended : LinkPc → Bool
  | .backoff_arm | .backoff | .top | .returned => true
  | _ => false

/-- Whether a generation has started and its hello is still to come. -/
def LinkPc.early : LinkPc → Bool
  | .dial_arm | .dialing | .connected | .hello => true
  | _ => false

def LinkPc.left : LinkPc → ℕ
  | .returned => 0
  | .top => 1
  | .backoff => 2
  | .backoff_arm => 3
  | .announce => 4
  | .closing _ => 5
  | .serve_top => 6
  | .heartbeat => 7
  | .serving => 8
  | .serve_arm => 9
  | .bulk_dial => 10
  | .ack_subscribe => 11
  | .subscribe => 12
  | .hello_flush => 13
  | .hello => 14
  | .connected => 15
  | .dialing => 16
  | .dial_arm => 17

/-- What happens to a link: the request and the loss of the control connection, and the
steps of its task with what the network answered. -/
inductive SupervisorEvent
  | request
  | connection_lost
  /-- `is_requested`, at one of its three places. -/
  | check
  | poll
  /-- A select takes its `notified` branch. -/
  | notified
  | dialed (ok : Bool)
  | hello_published (ok : Bool)
  | hello_flushed
  | subscribed (ok : Bool)
  | ack_subscribed (ok : Bool)
  | bulk_dialed (ok : Bool)
  | heartbeat_tick
  | heartbeat_published (ok : Bool)
  /-- The serve loop reaps a task, routes an ack or an rpc. -/
  | served
  | subscription_ended
  | tasks_stopped
  | announced (ok : Bool)
  | slept

def SupervisorEvent.of_task : SupervisorEvent → Bool
  | .request | .connection_lost => false
  | _ => true

/-- The steps that end a generation behind its hello without the announcement. -/
def LinkPc.leaves (pc : LinkPc) : SupervisorEvent → Bool
  | .subscribed ok | .ack_subscribed ok | .bulk_dialed ok | .announced ok => !ok
  | .tasks_stopped => pc == .closing .disconnected
  | _ => false

/-- What holds of the program counter over a step that publishes nothing and starts no
generation: it ends a generation before its hello, behind its end, or by leaving. -/
def LinkPc.moves (pc : LinkPc) (e : SupervisorEvent) (pc' : LinkPc) : Bool :=
  pc != .returned && (!pc'.early || pc.early) &&
    (!pc'.ended || pc.ended || pc.early || pc.leaves e) && (!pc.leaves e || pc'.ended)

structure RunLink where
  pc : LinkPc
  /-- The latched flag of `ShutdownSignal`. -/
  requested : Bool
  woken : Bool
  generation : ℕ
  hello_published : Bool
  /-- Whether this generation's control connection was lost. -/
  lost : Bool
  hb_seq : ℕ
  /-- What was published, with the generation it was published in. -/
  published : List (ℕ × AgentMessage)
  /-- The generation in which the first request fell. -/
  requested_in : Option ℕ
  /-- A request fell in this generation behind its hello, with its connection up. -/
  asked_live : Bool

namespace RunLink

/-- A link before `run_link`. -/
def start : RunLink where
  pc := .top
  requested := false
  woken := false
  generation := 0
  hello_published := false
  lost := false
  hb_seq := 0
  published := []
  requested_in := none
  asked_live := false

def live (s : RunLink) : Bool := s.hello_published && s.pc.has_client && !s.lost

/-- `ShutdownSignal::request`: the flag first, then the waiters. -/
def request (s : RunLink) : RunLink := { s with
    requested := true
    woken := s.woken || s.pc.waits
    requested_in := s.requested_in.or (some s.generation)
    asked_live := s.asked_live || s.live }

def publish (s : RunLink) (message : AgentMessage) : RunLink :=
  { s with published := s.published ++ [(s.generation, message)] }

/-- `is_requested` and what follows from it. -/
def check (s : RunLink) : Option RunLink := match s.pc with
  | .top =>
    if s.requested then some { s with pc := .returned }
    else
      some { s with pc := .dial_arm, generation := s.generation + 1, hello_published := false, lost := false }
  | .connected => some { s with pc := if s.requested then .returned else .hello }
  | .serve_top =>
    some { s with pc := if s.requested then .closing .clean_shutdown else .serve_arm }
  | _ => none

def poll (s : RunLink) : Option RunLink := match s.pc with
  | .dial_arm => some { s with pc := .dialing, woken := false }
  | .serve_arm => some { s with pc := .serving, woken := false }
  | .backoff_arm => some { s with pc := .backoff, woken := false }
  | _ => none

/-- The `notified` branch of a select. -/
def notified (s : RunLink) : Option RunLink := match s.pc with
  | .dialing => some { s with pc := .returned }
  | .serving => some { s with pc := .closing .clean_shutdown }
  | .backoff => some { s with pc := .returned }
  | _ => none

def step (s : RunLink) : SupervisorEvent → Option RunLink
  | .request => some s.request
  | .connection_lost => if s.pc.has_client then some { s with lost := true } else none
  | .check => s.check
  | .poll => s.poll
  | .notified => if s.woken then s.notified else none
  | .dialed ok =>
    if s.pc = .dialing then some { s with pc := if ok then .connected else .backoff_arm } else none
  | .hello_published ok =>
    if s.pc = .hello then
      some (if ok then { s.publish .hello with pc := .hello_flush, hello_published := true }
        else { s with pc := .backoff_arm })
    else none
  -- a failing flush is ignored
  | .hello_flushed => if s.pc = .hello_flush then some { s with pc := .subscribe } else none
  | .subscribed ok =>
    if s.pc = .subscribe then some { s with pc := if ok then .ack_subscribe else .backoff_arm }
    else none
  | .ack_subscribed ok =>
    if s.pc = .ack_subscribe then some { s with pc := if ok then .bulk_dial else .backoff_arm }
    else none
  | .bulk_dialed ok =>
    if s.pc = .bulk_dial then
      some { s with pc := if ok then .serve_top else .backoff_arm, hb_seq := 0 }
    else none
  | .heartbeat_tick =>
    if s.pc = .serving then some { s with pc := .heartbeat, hb_seq := s.hb_seq + 1 } else none
  | .heartbeat_published ok =>
    if s.pc = .heartbeat then
      some (if ok then { s.publish (.heartbeat s.hb_seq) with pc := .serve_top }
        else { s with pc := .closing .disconnected })
    else none
  | .served => if s.pc = .serving then some { s with pc := .serve_top } else none
  | .subscription_ended =>
    if s.pc = .serving then some { s with pc := .closing .disconnected } else none
  | .tasks_stopped =>
    if s.pc = .closing .clean_shutdown then some { s with pc := .announce }
    else if s.pc = .closing .disconnected then some { s with pc := .backoff_arm }
    else none
  -- a failing publish is only logged
  | .announced ok =>
    if s.pc = .announce then
      some { (if ok then s.publish .going_offline else s) with pc := .returned }
    else none
  | .slept => if s.pc = .backoff then some { s with pc := .top } else none

end RunLink

def LinkStep (s : RunLink) (e : SupervisorEvent) (s' : RunLink) : Prop := s.step e = some s'

namespace RunLink

structure Clean (s : RunLink) : Prop where
  same_generation : ∀ g ∈ s.requested_in, s.generation = g
  /-- Behind a request every step of the task brings the return nearer, and there is one
  until it has returned. -/
  returns : s.requested = true → s.pc ≠ .returned → (∃ e s', e.of_task = true ∧ LinkStep s e s') ∧
    ∀ e s', e.of_task = true → LinkStep s e s' → s'.pc.left < s.pc.left
  /-- A generation that was asked to stop behind its hello, and whose connection was not
  lost, does not end unannounced. -/
  announced : s.pc.ended = true → s.asked_live = true → s.lost = false →
    (s.generation, .going_offline) ∈ s.published
  last : ∀ m ∈ s.published.dropLast, m.2 ≠ .going_offline

/-- The condition on an event: where a step ends the generation without the announcement,
no stop was asked for behind the hello, or the connection was lost. -/
def NoLiveLeave (s : RunLink) (e : SupervisorEvent) : Prop :=
  s.pc.leaves e = true → s.asked_live = true → s.lost = true

instance (s : RunLink) (e : SupervisorEvent) : Decidable (s.NoLiveLeave e) :=
  inferInstanceAs (Decidable (_ → _ → _))

/-! ## The way to the return -/

variable {s s' : RunLink} {e : SupervisorEvent}

theorem task_step (s : RunLink) (hpc : s.pc ≠ .returned) : ∃ e s', e.of_task = true ∧ LinkStep s e s' := by
  have hnext {e : SupervisorEvent} (htask : e.of_task = true) (hsome : (s.step e).isSome = true) :
      ∃ e s', e.of_task = true ∧ LinkStep s e s' :=
    ⟨e, _, htask, (Option.some_get hsome).symm⟩
  cases hs : s.pc with
  | top => exact hnext (e := .check) rfl (by simp only [step, check, hs]; split <;> rfl)
  | connected | serve_top => exact hnext (e := .check) rfl (by simp only [step, check, hs]; rfl)
  | dial_arm | serve_arm | backoff_arm =>
    exact hnext (e := .poll) rfl (by simp only [step, poll, hs]; rfl)
  | dialing => exact hnext (e := .dialed false) rfl (by simp [step, hs])
  | hello => exact hnext (e := .hello_published false) rfl (by simp [step, hs])
  | hello_flush => exact hnext (e := .hello_flushed) rfl (by simp [step, hs])
  | subscribe => exact hnext (e := .subscribed false) rfl (by simp [step, hs])
  | ack_subscribe => exact hnext (e := .ack_subscribed false) rfl (by simp [step, hs])
  | bulk_dial => exact hnext (e := .bulk_dialed false) rfl (by simp [step, hs])
  | serving => exact hnext (e := .heartbeat_tick) rfl (by simp [step, hs])
  | heartbeat => exact hnext (e := .heartbeat_published true) rfl (by simp [step, hs])
  | closing outcome =>
    cases outcome <;> exact hnext (e := .tasks_stopped) rfl (by simp [step, hs])
  | announce => exact hnext (e := .announced true) rfl (by simp [step, hs])
  | backoff => exact hnext (e := .slept) rfl (by simp [step, hs])
  | returned => exact absurd hs hpc

/-- Behind a request every step of the task brings the return nearer: the flag is read
before a dial and before a serve loop is entered again. -/
theorem step_left (hrequested : s.requested = true) (htask : e.of_task = true)
    (h : LinkStep s e s') : s'.pc.left < s.pc.left := by
  cases e with
  | request | connection_lost => cases htask
  | check =>
    simp only [LinkStep, step, check, hrequested, if_true] at h
    split at h <;> cases h <;> simp [LinkPc.left, *]
  | poll =>
    simp only [LinkStep, step, poll] at h
    split at h <;> cases h <;> simp [LinkPc.left, *]
  | notified =>
    simp only [LinkStep, step, notified] at h
    split_ifs at h
    split at h <;> cases h <;> simp [LinkPc.left, *]
  | _ =>
    simp only [LinkStep, step] at h
    split_ifs at h <;> cases h <;> simp [LinkPc.left, *]

/-! ## What an event does -/

/-- A step of the task that publishes nothing and starts no generation. -/
structure Moves (s : RunLink) (e : SupervisorEvent) (s' : RunLink) : Prop where
  rest : s' = { s with pc := s'.pc, woken := s'.woken, hb_seq := s'.hb_seq }
  pc : s.pc.moves e s'.pc = true

structure Publishes (s : RunLink) (m : AgentMessage) (s' : RunLink) : Prop where
  rest : s' = { s.publish m with pc := s'.pc, hello_published := s'.hello_published }
  running : s.pc ≠ .returned
  late : s'.pc.early = false
  hello : s.hello_published = true → s'.hello_published = true
  ended : if m = .going_offline then s'.pc = .returned else s'.pc.ended = false

/-- **What an event does**: it requests, it loses the connection, it starts a generation
that no request forbids, it publishes, or it moves on. -/
theorem step_cases (h : LinkStep s e s') :
    (e = .request ∧ s' = s.request) ∨
      (e = .connection_lost ∧ s.pc.has_client = true ∧ s' = { s with lost := true }) ∨
      (e = .check ∧ s.pc = .top ∧ s.requested = false ∧
        s' = { s with pc := .dial_arm, generation := s.generation + 1, hello_published := false,
                      lost := false }) ∨
      (∃ m, s.pc.leaves e = false ∧ s.Publishes m s') ∨ s.Moves e s' := by
  have hmoves {pc : LinkPc} {t : RunLink} (hpc : s.pc = pc) (hmoves : pc.moves e t.pc = true)
      (hrest : t = { s with pc := t.pc, woken := t.woken, hb_seq := t.hb_seq }) : s.Moves e t :=
    ⟨hrest, hpc ▸ hmoves⟩
  cases e with
  | request =>
    cases h
    exact .inl ⟨rfl, rfl⟩
  | connection_lost =>
    simp only [LinkStep, step] at h
    split_ifs at h with hclient
    cases h
    exact .inr (.inl ⟨rfl, hclient, rfl⟩)
  | check =>
    simp only [LinkStep, step, check] at h
    split at h
    · rename_i hpc
      split_ifs at h with hrequested <;> cases h
      · exact .inr (.inr (.inr (.inr (hmoves hpc rfl rfl))))
      · exact .inr (.inr (.inl ⟨rfl, hpc, by simpa using hrequested, rfl⟩))
    · rename_i hpc
      cases h
      refine .inr (.inr (.inr (.inr (hmoves hpc ?_ rfl))))
      cases s.requested <;> rfl
    · rename_i hpc
      cases h
      refine .inr (.inr (.inr (.inr (hmoves hpc ?_ rfl))))
      cases s.requested <;> rfl
    · cases h
  | poll =>
    simp only [LinkStep, step, poll] at h
    split at h
    case h_4 => cases h
    all_goals
      rename_i hpc
      cases h
      exact .inr (.inr (.inr (.inr (hmoves hpc rfl rfl))))
  | notified =>
    simp only [LinkStep, step, notified] at h
    split_ifs at h
    split at h
    case h_4 => cases h
    all_goals
      rename_i hpc
      cases h
      exact .inr (.inr (.inr (.inr (hmoves hpc rfl rfl))))
  | hello_published ok =>
    simp only [LinkStep, step] at h
    split_ifs at h with hpc hok <;> cases h
    · exact .inr (.inr (.inr (.inl ⟨.hello, rfl, rfl, by simp [hpc], rfl, fun _ => rfl, rfl⟩)))
    · exact .inr (.inr (.inr (.inr (hmoves hpc rfl rfl))))
  | heartbeat_published ok =>
    simp only [LinkStep, step] at h
    split_ifs at h with hpc hok <;> cases h
    · exact .inr (.inr (.inr (.inl ⟨.heartbeat s.hb_seq, rfl, rfl, by simp [hpc], rfl, id, rfl⟩)))
    · exact .inr (.inr (.inr (.inr (hmoves hpc rfl rfl))))
  | announced ok =>
    cases ok <;> simp only [LinkStep, step, if_true, Bool.false_eq_true, if_false] at h <;>
      split_ifs at h with hpc <;> cases h
    · exact .inr (.inr (.inr (.inr (hmoves hpc rfl rfl))))
    · exact .inr (.inr (.inr (.inl ⟨.going_offline, rfl, rfl, by simp [hpc], rfl, id, rfl⟩)))
  | tasks_stopped =>
    simp only [LinkStep, step] at h
    split_ifs at h with hpc hpc' <;> cases h
    · exact .inr (.inr (.inr (.inr (hmoves hpc rfl rfl))))
    · exact .inr (.inr (.inr (.inr (hmoves hpc' rfl rfl))))
  | dialed ok | subscribed ok | ack_subscribed ok | bulk_dialed ok =>
    cases ok <;> simp only [LinkStep, step, if_true, Bool.false_eq_true, if_false] at h <;>
      split_ifs at h with hpc <;> cases h
    all_goals exact .inr (.inr (.inr (.inr (hmoves hpc rfl rfl))))
  | hello_flushed | heartbeat_tick | served | subscription_ended | slept =>
    simp only [LinkStep, step] at h
    split_ifs at h with hpc
    cases h
    exact .inr (.inr (.inr (.inr (hmoves hpc rfl rfl))))

/-! ## The claim -/

structure Sound (s : RunLink) : Prop where
  requested : s.requested = s.requested_in.isSome
  same_generation : ∀ g ∈ s.requested_in, s.generation = g
  asked : s.asked_live = true → s.requested = true ∧ s.hello_published = true
  early : s.pc.early = true → s.hello_published = false
  quiet : s.pc ≠ .returned → ∀ m ∈ s.published, m.2 ≠ .going_offline
  last : ∀ m ∈ s.published.dropLast, m.2 ≠ .going_offline

theorem Sound.not_early (h : s.Sound) (hasked : s.asked_live = true) : s.pc.early = false := by
  by_contra hearly
  have hhello := h.early (by simpa using hearly)
  simp [(h.asked hasked).2] at hhello

theorem live_ended (hended : s.pc.ended = true) : s.live = false := by
  have hclient : s.pc.has_client = false := by
    cases hpc : s.pc <;> rw [hpc] at hended <;> first | rfl | cases hended
  simp [live, hclient]

/-- The announcement is owed no longer: it was made, or there was none to make. -/
def Announced (s : RunLink) : Prop := s.pc.ended = true → s.asked_live = true → s.lost = false →
    (s.generation, .going_offline) ∈ s.published

/-- **One event** keeps the invariant; and the announcement is owed no longer behind it,
where it was not before, exactly if the event meets the condition. -/
theorem Sound.step (h : s.Sound) (hann : s.Announced) (hstep : LinkStep s e s') :
    s'.Sound ∧ (s'.Announced ↔ s.NoLiveLeave e) := by
  have hfree (hleaves : s.pc.leaves e = false) : s.NoLiveLeave e := by
    intro h'
    simp [hleaves] at h'
  obtain ⟨rfl, rfl⟩ | ⟨rfl, hclient, rfl⟩ | ⟨rfl, htop, hrequested, rfl⟩ | ⟨m, hleaves, hpub⟩ | hmove :=
    step_cases hstep
  · refine ⟨⟨by simp [request], fun g hg => ?_, fun hasked => ⟨rfl, ?_⟩, h.early, h.quiet, h.last⟩,
      iff_of_true (fun hended hasked => ?_) (hfree rfl)⟩
    · cases hin : s.requested_in with
      | none => simpa [request, hin] using hg
      | some g' =>
        refine h.same_generation g ?_
        simpa [request, hin] using hg
    · rcases Bool.or_eq_true_iff.1 hasked with hbefore | hlive
      · exact (h.asked hbefore).2
      · simp only [live, Bool.and_eq_true] at hlive
        exact hlive.1.1
    · refine hann hended ?_
      rcases Bool.or_eq_true_iff.1 hasked with hbefore | hlive
      · exact hbefore
      · have hdead : s.live = false := live_ended hended
        rw [hdead] at hlive
        cases hlive
  · exact ⟨⟨h.requested, h.same_generation, h.asked, h.early, h.quiet, h.last⟩,
      iff_of_true (fun _ _ hlost => by cases hlost) (hfree rfl)⟩
  · -- no request fell yet, so nothing is owed to one
    have hnone : s.requested_in = none := by
      have hsome := h.requested.symm.trans hrequested
      simpa using hsome
    have hnotasked : ¬s.asked_live = true := by
      intro hasked
      have hreq := (h.asked hasked).1
      simp [hrequested] at hreq
    refine ⟨⟨h.requested, fun g hg => ?_, fun hasked => absurd hasked hnotasked, fun _ => rfl, ?_,
      h.last⟩, iff_of_true (fun hended => by cases hended) (hfree rfl)⟩
    · rw [hnone] at hg
      cases hg
    · intro _
      exact h.quiet (by rw [htop]; simp)
  · obtain ⟨pc, hello, hlate, hhello, hended, rfl⟩ : ∃ pc hello, pc.early = false ∧
        (s.hello_published = true → hello = true) ∧
        (if m = .going_offline then pc = .returned else pc.ended = false) ∧
        s' = { s.publish m with pc, hello_published := hello } :=
      ⟨s'.pc, s'.hello_published, hpub.late, hpub.hello, hpub.ended, hpub.rest⟩
    have hbefore := h.quiet hpub.running
    refine ⟨⟨h.requested, h.same_generation, fun hasked => ⟨(h.asked hasked).1, hhello (h.asked hasked).2⟩,
      fun hearly => ?_, fun hpc => ?_, ?_⟩, iff_of_true (fun hended' _ _ => ?_) (hfree hleaves)⟩
    · simp [hlate] at hearly
    · intro x hx
      rcases List.mem_append.1 hx with hold | hnew
      · exact hbefore x hold
      · rw [List.mem_singleton.1 hnew]
        rintro rfl
        rw [if_pos rfl] at hended
        exact hpc hended
    · show ∀ x ∈ (s.published ++ [(s.generation, m)]).dropLast, x.2 ≠ .going_offline
      rw [List.dropLast_concat]
      exact hbefore
    · refine List.mem_append_right _ (List.mem_singleton.2 ?_)
      by_cases hm : m = .going_offline
      · rw [hm]
        rfl
      · rw [if_neg hm] at hended
        rw [show _ = _ from hended] at hended'
        cases hended'
  · obtain ⟨pc, woken, hb_seq, hpc, rfl⟩ : ∃ pc woken hb_seq, s.pc.moves e pc = true ∧
        s' = { s with pc, woken, hb_seq } :=
      ⟨s'.pc, s'.woken, s'.hb_seq, hmove.pc, hmove.rest⟩
    simp only [LinkPc.moves, Bool.and_eq_true, Bool.or_eq_true, bne_iff_ne, ne_eq, Bool.not_eq_true'] at hpc
    obtain ⟨⟨⟨hrunning, hearly⟩, hended⟩, hleaves⟩ := hpc
    have hbefore := h.quiet hrunning
    refine ⟨⟨h.requested, h.same_generation, h.asked, fun hearly' => ?_, fun _ => hbefore, h.last⟩, ?_⟩
    · rcases hearly with hnot | hearly
      · rw [show pc.early = true from hearly'] at hnot
        cases hnot
      · exact h.early hearly
    · constructor
      · -- the generation ended with nothing said
        intro hann' hleave hasked
        have hended' : pc.ended = true := by
          rcases hleaves with hnot | hended'
          · simp [hnot] at hleave
          · exact hended'
        by_contra hlost
        exact hbefore _ (hann' hended' hasked (by simpa using hlost)) rfl
      · intro hcond hended' hasked hlost
        rcases hended with ((hnot | hbefore') | hearly') | hleave
        · rw [show pc.ended = true from hended'] at hnot
          cases hnot
        · exact hann hbefore' hasked hlost
        · simp [h.not_early hasked] at hearly'
        · simp [hcond hleave hasked] at hlost

theorem Sound.start : start.Sound where
  requested := rfl
  same_generation := fun g hg => by cases hg
  asked := fun hasked => by cases hasked
  early := fun _ => rfl
  quiet := fun _ m hm => by cases hm
  last := fun m hm => by cases hm

/-- **A clean stop is announced and is the last word, exactly if no generation that was
asked to stop behind its hello is left by another way while its connection is up.** -/
theorem clean_iff_no_live_leave (es : List SupervisorEvent) :
    EachState LinkStep Clean start es ↔ EachStep LinkStep NoLiveLeave start es := by
  apply eachState_iff_eachStep (P := fun s => s.Sound ∧ s.Announced)
  · rintro s ⟨hsound, hann⟩
    exact ⟨hsound.same_generation,
      fun hrequested hpc => ⟨task_step s hpc, fun e s' htask h => step_left hrequested htask h⟩,
      hann, hsound.last⟩
  · rintro s e s' hstep ⟨hsound, hann⟩ hcond
    obtain ⟨hsound', hiff⟩ := hsound.step hann hstep
    exact ⟨hsound', hiff.2 hcond⟩
  · rintro s e s' hstep ⟨hsound, hann⟩ hclean
    exact (hsound.step hann hstep).2.1 hclean.announced
  · exact ⟨.start, fun _ hasked => by cases hasked⟩

/-- The stop is requested while the bulk connection is dialled, and the dial fails. -/
def refused_bulk_events : List SupervisorEvent :=
  [.check, .poll, .dialed true, .check, .hello_published true, .hello_flushed, .subscribed true,
    .ack_subscribed true, .request, .bulk_dialed false, .poll, .slept, .check]

/-- The link returns without a word on a connection that is up. -/
theorem refused_bulk_dial_is_not_announced : ¬EachState LinkStep Clean start refused_bulk_events := by
  intro h
  obtain ⟨s, hplay, hs⟩ : ∃ s, play step start refused_bulk_events = some s ∧
      (s.pc = .returned ∧ s.asked_live = true ∧ s.lost = false ∧ s.published = [(1, .hello)]) :=
    ⟨_, rfl, by decide⟩
  have hann := (h _ [] s (List.append_nil _).symm (run_of_play hplay)).announced
  obtain ⟨hpc, hasked, hlost, hpublished⟩ := hs
  have hmem := hann (by rw [hpc]; rfl) hasked hlost
  rw [hpublished] at hmem
  simp at hmem

end RunLink

end OpenGeni.Agent
