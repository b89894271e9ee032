/-
What the consumer of an op has granted.

The consumer publishes its credit as one absolute number: all the payload it has applied since
the op began, plus its window. `Books` is what its fields and the calls it has made agree on
between two events. `Leads` is what one event may do to them: every function of the consumer
leads, and what leads composes, so that one event is put together from the functions it calls.
`Level` is what `maybeGrantCredit` is for: less than half a window is applied and not granted.
-/
import OpenGeni.Runtime.OpReassembly

namespace OpenGeni.Runtime

open OpenGeni.Lib

def Call.ack : Call → Option OpAck
  | .publish ack => some ack
  | _ => none

def Call.attachFrom : Call → Option ℕ
  | .opAttach fromSeq _ => some fromSeq
  | _ => none

namespace OpConsumer

def granted (c : OpConsumer) : ℕ := ((c.calls.filterMap Call.ack).getLast?.map OpAck.creditBytes).getD c.windowBytes

structure Books (c : OpConsumer) : Prop where
  credit_le : c.creditAtLastAck ≤ c.receivedPayloadBytes
  granted : c.granted = c.creditAtLastAck + c.windowBytes
  /-- Acks are for credit only, and grant no more than a window. -/
  acks : ∀ ack, .publish ack ∈ c.calls → ack.ackedSeq = 0 ∧ ack.creditBytes ≤ c.receivedPayloadBytes + c.windowBytes
  /-- Attaches are from the frontier, under the window or under the one granted before. -/
  attaches : ∀ fromSeq windowBytes, .opAttach fromSeq windowBytes ∈ c.calls →
    fromSeq ≤ c.lastApplied ∧ (windowBytes = 0 ∨ windowBytes = c.windowBytes)

structure Leads (c c' : OpConsumer) : Prop where
  window : c'.windowBytes = c.windowBytes
  applied : c.lastApplied ≤ c'.lastApplied
  received : c.receivedPayloadBytes ≤ c'.receivedPayloadBytes
  calls : ∃ more, c'.calls = c.calls ++ more ∧
    (more.filterMap Call.ack = [] → c'.creditAtLastAck = c.creditAtLastAck)
  /-- Where nothing was received, it moves to all that was. -/
  level : c'.receivedPayloadBytes = c.receivedPayloadBytes →
    c'.creditAtLastAck = c.creditAtLastAck ∨ c'.creditAtLastAck = c'.receivedPayloadBytes
  books : c.Books → c'.Books

def Level (c : OpConsumer) : Prop := c.receivedPayloadBytes - c.creditAtLastAck < max 1 (c.windowBytes / 2)

variable {c c' c'' : OpConsumer} {frame : OpFrame}

/-! ## Leading -/

theorem Leads.of_same (hcalls : c'.calls = c.calls) (hwindow : c'.windowBytes = c.windowBytes)
    (happlied : c'.lastApplied = c.lastApplied) (hreceived : c'.receivedPayloadBytes = c.receivedPayloadBytes)
    (hcredit : c'.creditAtLastAck = c.creditAtLastAck) : c.Leads c' where
  window := hwindow
  applied := happlied.ge
  received := hreceived.ge
  calls := ⟨[], by rw [hcalls, List.append_nil], fun _ => hcredit⟩
  level := fun _ => .inl hcredit
  books := by
    intro h
    refine ⟨?_, ?_, ?_, ?_⟩
    · rw [hcredit, hreceived]
      exact h.credit_le
    · unfold OpConsumer.granted
      rw [hcalls, hcredit, hwindow]
      exact h.granted
    · rw [hcalls, hreceived, hwindow]
      exact h.acks
    · rw [hcalls, happlied, hwindow]
      exact h.attaches

theorem Leads.refl (c : OpConsumer) : c.Leads c := .of_same rfl rfl rfl rfl rfl

theorem Leads.trans (h : c.Leads c') (h' : c'.Leads c'') : c.Leads c'' where
  window := h'.window.trans h.window
  applied := h.applied.trans h'.applied
  received := h.received.trans h'.received
  calls := by
    obtain ⟨more, hcalls, hcredit⟩ := h.calls
    obtain ⟨more', hcalls', hcredit'⟩ := h'.calls
    refine ⟨more ++ more', by rw [hcalls', hcalls, List.append_assoc], ?_⟩
    intro hnone
    rw [List.filterMap_append, List.append_eq_nil_iff] at hnone
    rw [hcredit' hnone.2, hcredit hnone.1]
  level := by
    intro hsame
    -- what was received in between is what was received
    have hfirst : c'.receivedPayloadBytes = c.receivedPayloadBytes :=
      Nat.le_antisymm (hsame ▸ h'.received) h.received
    have hsecond : c''.receivedPayloadBytes = c'.receivedPayloadBytes := hsame.trans hfirst.symm
    rcases h'.level hsecond with hkept | hall
    · rcases h.level hfirst with hbefore | hbefore
      · exact .inl (hkept.trans hbefore)
      · exact .inr (hkept.trans (hbefore.trans hsecond.symm))
    · exact .inr hall
  books := fun hbooks => h'.books (h.books hbooks)

theorem Leads.keeps_level (h : c.Leads c') (hsame : c'.receivedPayloadBytes = c.receivedPayloadBytes)
    (hlevel : c.Level) : c'.Level := by
  unfold Level at hlevel ⊢
  rw [h.window]
  rcases h.level hsame with hkept | hall
  · rw [hsame, hkept]
    exact hlevel
  · rw [hall, Nat.sub_self]
    exact Nat.lt_of_lt_of_le Nat.zero_lt_one (Nat.le_max_left _ _)

/-! ## Calls -/

theorem emit_leads {call : Call} (hack : call.ack = none)
    (hattach : ∀ fromSeq windowBytes, call = .opAttach fromSeq windowBytes →
      fromSeq ≤ c.lastApplied ∧ (windowBytes = 0 ∨ windowBytes = c.windowBytes)) : c.Leads (c.emit call) where
  window := rfl
  applied := le_rfl
  received := le_rfl
  calls := ⟨[call], rfl, fun _ => rfl⟩
  level := fun _ => .inl rfl
  books := by
    intro h
    have hacks : ((c.emit call).calls.filterMap Call.ack) = c.calls.filterMap Call.ack := by
      show (c.calls ++ [call]).filterMap Call.ack = _
      rw [filterMap_concat, hack, Option.toList_none, List.append_nil]
    refine ⟨h.credit_le, ?_, ?_, ?_⟩
    · unfold OpConsumer.granted
      rw [hacks]
      exact h.granted
    · intro ack hmem
      rcases List.mem_append.1 hmem with hbefore | hnew
      · exact h.acks ack hbefore
      · rw [← List.mem_singleton.1 hnew] at hack
        cases hack
    · intro fromSeq windowBytes hmem
      rcases List.mem_append.1 hmem with hbefore | hnew
      · exact h.attaches fromSeq windowBytes hbefore
      · exact hattach fromSeq windowBytes (List.mem_singleton.1 hnew).symm

/-- **An ack** grants a window beyond all that was applied. -/
theorem sendAck_leads (c : OpConsumer) : c.Leads c.sendAck := by
  unfold sendAck
  split_ifs with htorn
  · exact .refl c
  · refine ⟨rfl, le_rfl, le_rfl, ⟨[_], rfl, ?_⟩, fun _ => .inr rfl, ?_⟩
    · intro hnone
      cases hnone
    · intro h
      refine ⟨le_rfl, ?_, ?_, ?_⟩
      · unfold OpConsumer.granted emit
        rw [filterMap_concat, Call.ack, Option.toList_some, List.getLast?_concat]
        rfl
      · intro ack hmem
        rcases List.mem_append.1 hmem with hbefore | hnew
        · exact h.acks ack hbefore
        · obtain rfl := Call.publish.inj (List.mem_singleton.1 hnew)
          exact ⟨rfl, le_rfl⟩
      · intro fromSeq windowBytes hmem
        rcases List.mem_append.1 hmem with hbefore | hnew
        · exact h.attaches fromSeq windowBytes hbefore
        · cases List.mem_singleton.1 hnew

theorem requestAttachHeal_leads (c : OpConsumer) : c.Leads c.requestAttachHeal := by
  unfold requestAttachHeal
  split_ifs
  · exact .refl c
  · have hflight : c.Leads { c with attachInFlight := true } := .of_same rfl rfl rfl rfl rfl
    refine hflight.trans (emit_leads rfl ?_)
    intro fromSeq windowBytes hcall
    obtain ⟨rfl, rfl⟩ := Call.opAttach.inj hcall
    exact ⟨le_rfl, .inl rfl⟩

theorem decide_race_leads (c : OpConsumer) (result : Except Thrown Unit) : c.Leads (c.decide_race result) :=
  .of_same rfl rfl rfl rfl rfl

/-! ## Frames -/

theorem Leads.of_received (hcalls : c'.calls = c.calls) (hwindow : c'.windowBytes = c.windowBytes)
    (happlied : c.lastApplied ≤ c'.lastApplied) (hreceived : c.receivedPayloadBytes ≤ c'.receivedPayloadBytes)
    (hcredit : c'.creditAtLastAck = c.creditAtLastAck) : c.Leads c' where
  window := hwindow
  applied := happlied
  received := hreceived
  calls := ⟨[], by rw [hcalls, List.append_nil], fun _ => hcredit⟩
  level := fun _ => .inl hcredit
  books := by
    intro h
    refine ⟨?_, ?_, ?_, ?_⟩
    · rw [hcredit]
      exact h.credit_le.trans hreceived
    · unfold OpConsumer.granted
      rw [hcalls, hcredit, hwindow]
      exact h.granted
    · rw [hcalls, hwindow]
      intro ack hmem
      obtain ⟨hseq, hcreditBytes⟩ := h.acks ack hmem
      exact ⟨hseq, hcreditBytes.trans (Nat.add_le_add_right hreceived _)⟩
    · rw [hcalls, hwindow]
      intro fromSeq windowBytes hmem
      obtain ⟨hfrom, hw⟩ := h.attaches fromSeq windowBytes hmem
      exact ⟨hfrom.trans happlied, hw⟩

theorem applyFrame_leads (hseq : c.lastApplied ≤ frame.seq) : c.Leads (c.applyFrame frame) := by
  have hmoved : c.Leads { c with lastApplied := frame.seq } := .of_received rfl rfl hseq le_rfl rfl
  unfold applyFrame
  split
  · exact hmoved
  · exact .of_received rfl rfl hseq (Nat.le_add_right _ _) rfl
  · exact hmoved.trans (sendAck_leads _)
  · exact .of_received rfl rfl hseq le_rfl rfl

@[simp] theorem sendAck_torn (c : OpConsumer) : c.sendAck.torn = c.torn := by
  unfold sendAck
  split_ifs <;> rfl

@[simp] theorem applyFrame_torn (c : OpConsumer) (frame : OpFrame) : (c.applyFrame frame).torn = c.torn := by
  unfold applyFrame
  split
  · rfl
  · rfl
  · rw [sendAck_torn]
  · rfl

@[simp] theorem drain_torn (fuel : ℕ) (c : OpConsumer) : (c.drain fuel).torn = c.torn := by
  induction fuel generalizing c with
  | zero => rfl
  | succ fuel ih =>
    rw [drain]
    split
    · rfl
    · rw [ih, applyFrame_torn]

@[simp] theorem maybeSettle_torn (c : OpConsumer) : c.maybeSettle.torn = c.torn := by
  unfold maybeSettle
  split
  · split_ifs <;> rfl
  · rfl

theorem applyFrame_stash (c : OpConsumer) (frame : OpFrame) : (c.applyFrame frame).stash = c.stash :=
  congrArg Assembly.stash (applyFrame_assembly c frame)

theorem drain_leads (fuel : ℕ) (hkeyed : ∀ k f, c.stash.lookup k = some f → f.seq = k) :
    c.Leads (c.drain fuel) := by
  induction fuel generalizing c with
  | zero => exact .refl c
  | succ fuel ih =>
    rw [drain]
    split
    next => exact .refl c
    next f hf =>
      have hseq : f.seq = c.lastApplied + 1 := hkeyed _ f hf
      have htaken : c.Leads { c with stash := c.stash.erase (c.lastApplied + 1) } := .of_same rfl rfl rfl rfl rfl
      refine htaken.trans ((applyFrame_leads ?_).trans (ih ?_))
      · rw [hseq]
        exact Nat.le_succ _
      · intro k g hg
        rw [applyFrame_stash] at hg
        have hne : k ≠ c.lastApplied + 1 := by
          rintro rfl
          rw [AList.lookup_erase] at hg
          cases hg
        rw [AList.lookup_erase_ne hne] at hg
        exact hkeyed k g hg

theorem maybeSettle_leads (c : OpConsumer) : c.Leads c.maybeSettle := by
  unfold maybeSettle
  split
  · split_ifs
    · refine Leads.trans (emit_leads rfl ?_) (decide_race_leads _ _)
      intro fromSeq windowBytes hcall
      cases hcall
    · exact .refl c
  · exact .refl c

theorem maybeGrantCredit_leads (c : OpConsumer) : c.Leads c.maybeGrantCredit := by
  unfold maybeGrantCredit
  split_ifs
  · exact sendAck_leads c
  · exact .refl c

/-- **`maybeGrantCredit` levels.** -/
theorem maybeGrantCredit_level (htorn : c.torn = false) : c.maybeGrantCredit.Level := by
  unfold maybeGrantCredit
  split_ifs with hhalf
  · unfold sendAck
    rw [htorn]
    show c.receivedPayloadBytes - c.receivedPayloadBytes < _
    rw [Nat.sub_self]
    exact Nat.lt_of_lt_of_le Nat.zero_lt_one (Nat.le_max_left _ _)
  · exact Nat.lt_of_lt_of_le (Nat.lt_of_not_le hhalf) (Nat.le_max_right _ _)

theorem receive_leads (hkeyed : ∀ k f, c.stash.lookup k = some f → f.seq = k) : c.Leads (c.receive frame) := by
  unfold receive
  split_ifs with hdup hgap hroom
  · exact .refl c
  · have hstashed : c.Leads { c with stash := c.stash.insert frame.seq frame } := .of_same rfl rfl rfl rfl rfl
    exact hstashed.trans (requestAttachHeal_leads _)
  · exact requestAttachHeal_leads c
  · have happly : c.Leads (c.applyFrame frame) := applyFrame_leads (Nat.le_of_not_le hdup)
    have hdrain := drain_leads c.stash.keys.length (c := c.applyFrame frame)
      (by rw [applyFrame_stash]; exact hkeyed)
    exact happly.trans (hdrain.trans ((maybeSettle_leads _).trans (maybeGrantCredit_leads _)))

theorem receive_level (hlevel : c.Level) (htorn : c.torn = false) : (c.receive frame).Level := by
  unfold receive
  split_ifs with hdup hgap hroom
  · exact hlevel
  · have hstashed : c.Leads { c with stash := c.stash.insert frame.seq frame } := .of_same rfl rfl rfl rfl rfl
    refine (hstashed.trans (requestAttachHeal_leads _)).keeps_level ?_ hlevel
    exact congrArg Assembly.receivedPayloadBytes (requestAttachHeal_assembly _)
  · refine (requestAttachHeal_leads c).keeps_level ?_ hlevel
    exact congrArg Assembly.receivedPayloadBytes (requestAttachHeal_assembly _)
  · apply maybeGrantCredit_level
    rw [maybeSettle_torn, drain_torn, applyFrame_torn]
    exact htorn

theorem onFramePayload_leads (now : ℕ) (payload : Option OpFrame)
    (hkeyed : ∀ k f, c.stash.lookup k = some f → f.seq = k) : c.Leads (c.onFramePayload now payload) := by
  unfold onFramePayload
  split
  · exact .refl c
  · split_ifs
    · exact .refl c
    · have hheard : c.Leads { c with lastFrameAt := now, silenceSince := none } := .of_same rfl rfl rfl rfl rfl
      exact hheard.trans (receive_leads hkeyed)

theorem onFramePayload_level (now : ℕ) (payload : Option OpFrame) (hlevel : c.Level) (htorn : c.torn = false) :
    (c.onFramePayload now payload).Level := by
  unfold onFramePayload
  split
  · exact hlevel
  · split_ifs
    · exact hlevel
    · exact receive_level (c := { c with lastFrameAt := now, silenceSince := none }) hlevel htorn

/-! ## The other events -/

theorem attachHealed_leads (answer : Except Thrown ControlResult) : c.Leads (c.attachHealed answer) := by
  unfold attachHealed
  split
  · exact .of_same rfl rfl rfl rfl rfl
  next error _ =>
    split_ifs
    · have hlanded : c.Leads { c with attachInFlight := false } := .of_same rfl rfl rfl rfl rfl
      refine hlanded.trans (Leads.trans (emit_leads rfl ?_) (decide_race_leads _ _))
      intro fromSeq windowBytes hcall
      cases hcall
    · exact .of_same rfl rfl rfl rfl rfl
  · exact .of_same rfl rfl rfl rfl rfl

theorem probeSilence_leads (now : ℕ) : c.Leads (c.probeSilence now) := by
  have hsilent : c.Leads { c with silenceSince := c.silenceSince.or (some now) } := .of_same rfl rfl rfl rfl rfl
  refine hsilent.trans (emit_leads rfl ?_)
  intro fromSeq windowBytes hcall
  cases hcall

theorem holdOrFail_leads (hold now : ℕ) (error : SelfhostedControlError) : c.Leads (c.holdOrFail hold now error) := by
  unfold holdOrFail
  dsimp only
  split_ifs
  · exact .refl c
  · exact decide_race_leads c _

theorem silenceProbed_leads (hold now : ℕ) (answer : Except Thrown ControlResult) :
    c.Leads (c.silenceProbed hold now answer) := by
  unfold silenceProbed
  split
  · split_ifs
    · exact decide_race_leads c _
    · exact requestAttachHeal_leads c
    · exact .refl c
  · exact holdOrFail_leads hold now _
  · exact holdOrFail_leads hold now _
  · exact decide_race_leads c _

theorem started_leads (answer : Except Thrown ℕ) : c.Leads (c.started answer) := by
  unfold started
  split
  next startRetries =>
    have hphase : c.Leads { c with phase := .attaching startRetries } := .of_same rfl rfl rfl rfl rfl
    refine hphase.trans (emit_leads rfl ?_)
    intro fromSeq windowBytes hcall
    obtain ⟨rfl, rfl⟩ := Call.opAttach.inj hcall
    exact ⟨le_rfl, .inr rfl⟩
  · exact .of_same rfl rfl rfl rfl rfl

/-- **One event that brings no frame.** Nothing is applied, and the consumer stays level. -/
theorem step_leads {config : ConsumerConfig} {e : ConsumerEvent} (hstep : ConsumerStep config c e c')
    (hframe : ∀ now payload, e ≠ .frame now payload) : c.Leads c' ∧ c'.assembly = c.assembly := by
  cases hstep with
  | frame now payload => exact absurd rfl (hframe now payload)
  | ackTimer => exact ⟨sendAck_leads c, sendAck_assembly c⟩
  | attachHealed answer =>
    refine ⟨attachHealed_leads answer, ?_⟩
    unfold attachHealed
    split
    · rfl
    · split_ifs <;> rfl
    · rfl
  | silence now => exact ⟨probeSilence_leads now, rfl⟩
  | silenceProbed now answer =>
    refine ⟨silenceProbed_leads _ now answer, ?_⟩
    unfold silenceProbed holdOrFail
    dsimp only
    split
    · split_ifs
      · rfl
      · exact requestAttachHeal_assembly c
      · rfl
    · split_ifs <;> rfl
    · split_ifs <;> rfl
    · rfl
  | wall => exact ⟨decide_race_leads c _, rfl⟩
  | started answer =>
    refine ⟨started_leads answer, ?_⟩
    unfold started
    split <;> rfl
  | attached startRetries answer =>
    unfold attached
    split
    · exact ⟨.of_same rfl rfl rfl rfl rfl, rfl⟩
    · exact ⟨.of_same rfl rfl rfl rfl rfl, rfl⟩
  | raced startRetries result =>
    unfold raced
    split
    · exact ⟨.of_same rfl rfl rfl rfl rfl, rfl⟩
    · exact ⟨.of_same rfl rfl rfl rfl rfl, rfl⟩
  | teardown => exact ⟨.of_same rfl rfl rfl rfl rfl, rfl⟩

theorem new_books (opId generation : String) (windowBytes now : ℕ) :
    (new opId generation windowBytes now).Books := by
  refine ⟨le_rfl, (Nat.zero_add _).symm, ?_, ?_⟩
  · intro ack hmem
    cases hmem
  · intro fromSeq w hmem
    cases hmem

theorem new_level (opId generation : String) (windowBytes now : ℕ) : (new opId generation windowBytes now).Level :=
  Nat.lt_of_lt_of_le Nat.zero_lt_one (Nat.le_max_left _ _)

end OpConsumer

/-- **The consumer keeps to its window.** Whatever of the log arrives, in any order and any number of times,
and whatever its requests are answered: its acks acknowledge no frame and grant no more than a window beyond
what has arrived, and it attaches nowhere above what it has applied. -/
theorem consumer_keeps_window (log : OpLog) (config : ConsumerConfig) (generation : String) (windowBytes now : ℕ)
    (es : List ConsumerEvent) :
    EachState (Restrict (ConsumerStep config) fun _ e => e.DrawnFrom log) OpConsumer.Books
      (.new log.opId generation windowBytes now) es := by
  intro es₁ es₂ c hes hrun
  refine (hrun.invariant (P := fun c => Reads log c.assembly c.standing ∧ c.Books) ?_
    ⟨.init log generation windowBytes now, OpConsumer.new_books log.opId generation windowBytes now⟩).2
  rintro s e t ⟨hstep, hdrawn⟩ ⟨hreads, hbooks⟩
  refine ⟨hreads.step hstep hdrawn, ?_⟩
  by_cases hframe : ∃ now payload, e = .frame now payload
  · obtain ⟨now, payload, rfl⟩ := hframe
    obtain ⟨b, hb, hwithin⟩ := hreads.applied
    have hkeyed : ∀ k f, s.stash.lookup k = some f → f.seq = k := by
      rw [show s.stash = b.stash from congrArg Assembly.stash hb]
      exact Reads.selfKeyed hwithin
    cases hstep
    exact (OpConsumer.onFramePayload_leads now payload hkeyed).books hbooks
  · exact (OpConsumer.step_leads hstep fun now payload heq => hframe ⟨now, payload, heq⟩).1.books hbooks

end OpenGeni.Runtime
