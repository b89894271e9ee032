/-
Send-side credit flow control with attach-generation fencing
(`opengeni-agent-engine/src/flow.rs`, `CreditFlow`).

One flow per op answers one question, "may this frame be sent now?". The window
bounds unacknowledged payload, so a frame without payload passes whenever a
consumer is attached. An ack replaces the window and releases bytes the caller
has counted; only the exact current generation is heard.

The lemmas give each operation's effect field by field, so that the pump's proofs
need not open the operations again.
-/
import Mathlib

namespace OpenGeni.Engine

inductive AttachOutcome
  | accepted
  | stale_generation (current : ℕ)

inductive AckOutcome
  | applied
  | stale_generation (current : ℕ)

/-- `CreditFlow`: per-op send-side flow state. -/
structure CreditFlow where
  /-- Highest attach generation seen; 0 = never attached. -/
  attach_gen : ℕ
  attached : Bool
  /-- The current absolute window grant in payload bytes. -/
  window_bytes : ℕ
  sent_hi : ℕ
  /-- Unacked payload bytes in flight in the current attachment. -/
  unacked_sent_bytes : ℕ

namespace CreditFlow

def new : CreditFlow := ⟨0, false, 0, 0, 0⟩

def attach (flow : CreditFlow) (generation from_seq window : ℕ) : AttachOutcome × CreditFlow :=
  if generation = 0 ∨ generation < flow.attach_gen then
    (.stale_generation flow.attach_gen, flow)
  else (.accepted, ⟨generation, true, window, from_seq, 0⟩)

def detach (flow : CreditFlow) : CreditFlow := { flow with attached := false }

def may_send (flow : CreditFlow) (payload_len : ℕ) : Bool := if !flow.attached then false
  else if payload_len = 0 then true
  else decide (flow.unacked_sent_bytes + payload_len ≤ flow.window_bytes)

def allowance (flow : CreditFlow) : ℕ := if !flow.attached then 0 else flow.window_bytes - flow.unacked_sent_bytes

def on_sent (flow : CreditFlow) (seq payload_len : ℕ) : CreditFlow := { flow with
    sent_hi := max seq flow.sent_hi
    unacked_sent_bytes := flow.unacked_sent_bytes + payload_len }

def on_ack (flow : CreditFlow) (generation credit_bytes freed_sent_bytes : ℕ) : AckOutcome × CreditFlow :=
  if generation ≠ flow.attach_gen then (.stale_generation flow.attach_gen, flow)
  else
    (.applied, { flow with
        window_bytes := credit_bytes
        unacked_sent_bytes := flow.unacked_sent_bytes - freed_sent_bytes })

/-! ## What the operations do -/

section Lemmas

variable (flow : CreditFlow)

theorem on_sent_sent_hi {seq : ℕ} (n : ℕ) (h : flow.sent_hi < seq) : (flow.on_sent seq n).sent_hi = seq := by
  exact Nat.max_eq_left (Nat.le_of_lt h)

variable {flow}

theorem may_send_iff (hatt : flow.attached = true) (n : ℕ) :
    flow.may_send n = true ↔ n = 0 ∨ flow.unacked_sent_bytes + n ≤ flow.window_bytes := by
  unfold may_send
  rw [hatt]
  by_cases hn : n = 0
  · simp
  · simp

theorem allowance_pos_iff (hatt : flow.attached = true) :
    0 < flow.allowance ↔ flow.unacked_sent_bytes < flow.window_bytes := by
  unfold allowance
  rw [hatt]
  exact Nat.sub_pos_iff_lt

theorem allowance_attached (hatt : flow.attached = true) :
    flow.allowance = flow.window_bytes - flow.unacked_sent_bytes := by
  unfold allowance
  rw [hatt]
  rfl

variable {generation : ℕ}

theorem attach_accepted (from_seq window : ℕ) (hzero : generation ≠ 0) (hcur : flow.attach_gen ≤ generation) :
    flow.attach generation from_seq window = (.accepted, ⟨generation, true, window, from_seq, 0⟩) := by
  unfold attach
  rw [if_neg (not_or.2 ⟨hzero, Nat.not_lt.2 hcur⟩)]

theorem attach_stale (from_seq window : ℕ) (h : generation = 0 ∨ generation < flow.attach_gen) :
    flow.attach generation from_seq window = (.stale_generation flow.attach_gen, flow) := by
  unfold attach
  rw [if_pos h]

theorem on_ack_stale (credit freed : ℕ) (h : generation ≠ flow.attach_gen) :
    flow.on_ack generation credit freed = (.stale_generation flow.attach_gen, flow) := by
  unfold on_ack
  rw [if_pos h]

theorem on_ack_current (credit freed : ℕ) (h : generation = flow.attach_gen) : flow.on_ack generation credit freed
      = (.applied, { flow with
          window_bytes := credit
          unacked_sent_bytes := flow.unacked_sent_bytes - freed }) := by
  unfold on_ack
  rw [if_neg (not_not.2 h)]

end Lemmas

end CreditFlow

end OpenGeni.Engine
