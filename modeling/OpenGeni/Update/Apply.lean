/-
The self-update of the agent binary (`opengeni-agent-update/src/apply.rs`,
and `finalize_update` of `lib.rs`).

Three files matter: the binary at the install path, the backup beside it and the temp
file of a new binary. A rename is atomic. Every other operation may fail or be cut
short; a write and a copy leave any prefix of what they were to write. Each function is
a program over these operations, with the results it ignores ignored.

The specification remembers which binaries were installed or verified, which was
promoted last, and whether an update is waiting for its health gate. The marks of the
programs keep these: they are no step of the code.
-/
import OpenGeni.Lib.CrashProgram
import OpenGeni.Lib.Run

namespace OpenGeni.Update

open OpenGeni.Lib OpenGeni.Lib.CrashProgram

/-! ## The file system -/

inductive InstallFile
  | live
  | backup
  | temp
deriving DecidableEq

/-- The file operations of the updater. `self_replace` is the crate's: it puts the temp
file's content in the place of the running binary at once, or leaves it alone. -/
inductive FsOp
  | write (bytes : List UInt8)
  | set_permissions
  | remove (file : InstallFile)
  | rename (source target : InstallFile)
  | copy_live
  | self_replace

/-- An installation: the files, and what the specification remembers. -/
structure Install where
  fs : InstallFile → Option (List UInt8)
  verified : List (List UInt8)
  promoted : List UInt8
  /-- Whether an update was applied and not promoted or rolled back. -/
  pending : Bool

/-- `UpdateError`, as far as these functions return it. -/
inductive UpdateError
  | io (file : InstallFile)
  | current_exe
  | health_check (text : String)

namespace Install

def installed (bytes : List UInt8) : Install where
  fs := fun file => if file = .live then some bytes else none
  verified := [bytes]
  promoted := bytes
  pending := false

def put (s : Install) (file : InstallFile) (content : Option (List UInt8)) : Install :=
  { s with fs := Function.update s.fs file content }

@[simp] theorem put_self (s : Install) (file : InstallFile) (content : Option (List UInt8)) :
    (s.put file content).fs file = content := Function.update_self ..

theorem put_ne (s : Install) {file file' : InstallFile} (content : Option (List UInt8))
    (h : file' ≠ file) : (s.put file content).fs file' = s.fs file' := Function.update_of_ne h ..

@[simp] theorem put_verified (s : Install) (file : InstallFile) (content : Option (List UInt8)) :
    (s.put file content).verified = s.verified := rfl

@[simp] theorem put_promoted (s : Install) (file : InstallFile) (content : Option (List UInt8)) :
    (s.put file content).promoted = s.promoted := rfl

@[simp] theorem put_pending (s : Install) (file : InstallFile) (content : Option (List UInt8)) :
    (s.put file content).pending = s.pending := rfl

/-- `Path::exists`. -/
def has (file : InstallFile) (s : Install) : Bool := (s.fs file).isSome

def apply : FsOp → Install → Install
  | .write bytes, s => s.put .temp (some bytes)
  | .set_permissions, s => s
  | .remove file, s => s.put file none
  | .rename source target, s => (s.put target (s.fs source)).put source none
  | .copy_live, s => s.put .backup (s.fs .live)
  | .self_replace, s => s.put .live (s.fs .temp)

def can : FsOp → Install → Prop
  | .write _, _ => True
  | .set_permissions, s => s.fs .temp ≠ none
  | .remove file, s => s.fs file ≠ none
  | .rename source _, s => s.fs source ≠ none
  | .copy_live, s => s.fs .live ≠ none
  | .self_replace, s => s.fs .temp ≠ none

/-- What an operation may leave that fails or is cut short: all as it was, or a torn
file. -/
def leaves : FsOp → Install → Install → Prop
  | .write bytes, s, s' => s' = s ∨ ∃ torn, torn <+: bytes ∧ s' = s.put .temp (some torn)
  | .copy_live, s, s' =>
    s' = s ∨ ∃ bytes torn, s.fs .live = some bytes ∧ torn <+: bytes ∧ s' = s.put .backup (some torn)
  | _, s, s' => s' = s

/-! ## The marks -/

def verify (bytes : List UInt8) (s : Install) : Install := { s with verified := bytes :: s.verified }

def applied (s : Install) : Install := { s with pending := true }

def restored (s : Install) : Install := { s with pending := false }

def passed (s : Install) : Install := { s with promoted := (s.fs .live).getD s.promoted, pending := false }

end Install

/-- The disk: any operation may fail, and the power may go anywhere. -/
def disk : Device FsOp Install where
  can := Install.can
  apply := Install.apply
  leaves := Install.leaves
  crashes := fun _ => True

/-! ## The functions -/

abbrev UpdateProgram := CrashProgram FsOp Install (Except UpdateError Unit)

def write_executable (bytes : List UInt8) : UpdateProgram := .op (.write bytes) fun written =>
    if written then
      .op .set_permissions fun set =>
        if set then .ret (.ok ()) else .op (.remove .temp) fun _ => .ret (.error (.io .temp))
    else .ret (.error (.io .temp))

/-- Step 3 of `swap_binary`. -/
def rename_into_place : UpdateProgram := .op (.rename .temp .live) fun renamed =>
    if renamed then .mark Install.applied (.ret (.ok ()))
    else
      .test (Install.has .backup) fun found =>
        let cleanup := .op (.remove .temp) fun _ => .ret (.error (.io .live))
        if found then .op (.rename .backup .live) fun _ => cleanup else cleanup

def swap_binary (new_bytes : List UInt8) : UpdateProgram := .mark (Install.verify new_bytes) <|
    (write_executable new_bytes).andThen fun
      | .error error => .ret (.error error)
      | .ok () =>
        .test (Install.has .live) fun found =>
          if found then
            .op (.remove .backup) fun _ =>
              .op (.rename .live .backup) fun moved =>
                if moved then rename_into_place else .ret (.error (.io .backup))
          else rename_into_place

def rollback : UpdateProgram := .test (Install.has .backup) fun found =>
    if found then
      .op (.remove .live) fun _ =>
        .op (.rename .backup .live) fun renamed =>
          if renamed then .mark Install.restored (.ret (.ok ())) else .ret (.error (.io .live))
    else .ret (.error (.io .backup))

def promote : UpdateProgram := .test (Install.has .backup) fun found =>
    if found then
      .op (.remove .backup) fun removed =>
        if removed then .mark Install.passed (.ret (.ok ())) else .ret (.error (.io .backup))
    else .mark Install.passed (.ret (.ok ()))

/-- `replace_running_exe`; `resolved` is whether `current_exe` answered. -/
def replace_running_exe (resolved : Bool) (new_bytes : List UInt8) : UpdateProgram := if resolved then
    .mark (Install.verify new_bytes) <|
      (write_executable new_bytes).andThen fun
        | .error error => .ret (.error error)
        | .ok () =>
          .op (.remove .backup) fun _ =>
            .op .copy_live fun copied =>
              if copied then
                .op .self_replace fun replaced =>
                  if replaced then
                    .mark Install.applied (.op (.remove .temp) fun _ => .ret (.ok ()))
                  else .ret (.error (.io .live))
              else .ret (.error (.io .backup))
  else .ret (.error .current_exe)

def finalize_update : Except String Unit → UpdateProgram
  | .ok () => promote
  | .error text =>
    rollback.andThen fun
      | .ok () => .ret (.error (.health_check text))
      | .error error => .ret (.error error)

inductive Call
  | swap_binary (new_bytes : List UInt8)
  | replace_running_exe (resolved : Bool) (new_bytes : List UInt8)
  | finalize_update (health : Except String Unit)
  | rollback
  | promote

def Call.program : Call → UpdateProgram
  | .swap_binary new_bytes => Update.swap_binary new_bytes
  | .replace_running_exe resolved new_bytes => Update.replace_running_exe resolved new_bytes
  | .finalize_update health => Update.finalize_update health
  | .rollback => Update.rollback
  | .promote => Update.promote

def Call.updates : Call → Bool
  | .swap_binary _ | .replace_running_exe _ _ => true
  | _ => false

structure CallEvent where
  call : Call
  result : Option (Except UpdateError Unit)

def CallStep (d : Device FsOp Install) (s : Install) (e : CallEvent) (s' : Install) : Prop :=
  Exec d e.call.program s e.result s'

end OpenGeni.Update
