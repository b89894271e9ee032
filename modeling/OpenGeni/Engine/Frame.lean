/-
The engine's data model (`opengeni-agent-engine/src/lib.rs`).

The durable op identity, the logical byte streams, and the sequenced frames an
op produces. Sequence numbers and byte counts are `u64` in the source and `ℕ`
here: they count frames and bytes that are physically held, and the source's own
stance is that a `seq` never wraps. Where a number is laid out in a fixed number
of bytes (the spool's record header) its width is modelled.
-/
import Mathlib

namespace OpenGeni.Engine

/-- `OpId`: the durable operation identity. -/
structure OpId where
  as_str : String
deriving DecidableEq

/-- `Channel`: which logical byte stream a data frame belongs to. -/
inductive Channel
  | stdout
  | stderr
  | content
deriving DecidableEq

/-- `FrameBody`: one retained frame body. `exit` payloads are opaque to the
engine. -/
inductive FrameBody
  | data (channel : Channel) (bytes : List UInt8)
  | progress
  | exit (payload : List UInt8)
deriving DecidableEq

namespace FrameBody

/-- `FrameBody::payload_len`: progress is free, exit counts. -/
def payload_len : FrameBody → ℕ
  | .data _ bytes => bytes.length
  | .progress => 0
  | .exit payload => payload.length

def is_exit : FrameBody → Bool
  | .exit _ => true
  | _ => false

/-- The bytes a body carries (the `payload` slice `Spool::append` writes). -/
def payload : FrameBody → List UInt8
  | .data _ bytes => bytes
  | .progress => []
  | .exit payload => payload

@[simp] theorem payload_length (body : FrameBody) : body.payload.length = body.payload_len := by
  cases body <;> rfl

@[simp] theorem payload_len_progress : FrameBody.progress.payload_len = 0 := rfl

end FrameBody

/-- `Frame`: a sequenced, retained frame. -/
structure Frame where
  seq : ℕ
  body : FrameBody
deriving DecidableEq

end OpenGeni.Engine
