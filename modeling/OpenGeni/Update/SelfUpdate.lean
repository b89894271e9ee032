/-
What an update leaves on the disk.

The module doc promises that the worst outcome of a power loss is the old binary still in
place. Three things stand in the way. `swap_binary` renames the live file away before it
renames the new one into place, and `rollback` removes it first, so that the install
path is vacant in between. `replace_running_exe` copies the live file to the backup, and a
copy may be torn. And a second update overwrites the backup with a binary that nobody
promoted.

A careful run has none of the three: nothing fails and no power goes while the path is
vacant, no copy is torn, and an update waits for the previous one's verdict. In a careful
run (`careful_run_kept`) a verified binary is at the install path at every crash point, the
backup of an update that waits is the binary promoted last, and a call that returns an
error has left the install path alone; but for the health-check error of
`finalize_update`, which is returned behind a rollback that worked.
-/
import OpenGeni.Update.Apply

namespace OpenGeni.Update

open OpenGeni.Lib OpenGeni.Lib.CrashProgram

/-- The disk of a careful run: while the install path is vacant nothing fails and no
power goes; and a copy is made or not made. -/
def careful : Device FsOp Install where
  can := disk.can
  apply := disk.apply
  leaves o s s' := disk.leaves o s s' ∧ s.fs .live ≠ none ∧ (o = .copy_live → s' = s)
  crashes s := s.fs .live ≠ none

def OneAtATime (s : Install) (e : CallEvent) : Prop := e.call.updates = true → s.pending = false

instance (s : Install) (e : CallEvent) : Decidable (OneAtATime s e) :=
  inferInstanceAs (Decidable (_ → _))

theorem careful_step {s s' : Install} {e : CallEvent} (h : CallStep careful s e s') : CallStep disk s e s' := by
  have hleaves (o : FsOp) (t u : Install) (hleft : careful.leaves o t u) : disk.leaves o t u := hleft.1
  exact Exec.mono (d := careful) (e := disk) (fun _ _ hcan => hcan) rfl hleaves (fun _ _ => trivial) h

namespace Install

structure Kept (s : Install) : Prop where
  live : ∃ bytes ∈ s.verified, s.fs .live = some bytes
  /-- The backup of an update that waits is the binary promoted last. -/
  waiting : s.pending = true → s.fs .backup = some s.promoted
  /-- With none waiting, the binary promoted last is in place, and no other backed up. -/
  settled : s.pending = false → s.fs .live = some s.promoted ∧
    (s.fs .backup = none ∨ s.fs .backup = some s.promoted)
  promoted : s.promoted ∈ s.verified

structure Returned (s : Install) (call : Call) (result : Except UpdateError Unit) (s' : Install) :
    Prop where
  /-- An error leaves the path alone, but for a failed health check: -/
  error : ∀ e, result = .error e → (∀ text, e ≠ .health_check text) → s'.fs .live = s.fs .live
  health : ∀ text, result = .error (.health_check text) → s'.fs .live = some s.promoted
  /-- A rollback puts back the binary promoted last. -/
  rolled_back : call = .rollback → result = .ok () → s'.fs .live = some s.promoted

variable {s s' : Install}

theorem Kept.occupied (h : s.Kept) : s.fs .live ≠ none := by
  obtain ⟨bytes, -, hlive⟩ := h.live
  simp [hlive]

theorem put_same (s : Install) (file : InstallFile) : s.put file (s.fs file) = s := by
  rw [put, Function.update_eq_self]

theorem Kept.put_temp (h : s.Kept) (content : Option (List UInt8)) : (s.put .temp content).Kept where
  live := by simpa [put_ne] using h.live
  waiting := by simpa [put_ne] using h.waiting
  settled := by simpa [put_ne] using h.settled
  promoted := h.promoted

theorem Kept.verify (h : s.Kept) (bytes : List UInt8) : (s.verify bytes).Kept where
  live := by
    obtain ⟨live, hmem, hlive⟩ := h.live
    exact ⟨live, List.mem_cons_of_mem _ hmem, hlive⟩
  waiting := h.waiting
  settled := h.settled
  promoted := List.mem_cons_of_mem _ h.promoted

theorem Kept.remove_backup (h : s.Kept) (hpending : s.pending = false) : (s.put .backup none).Kept where
  live := by simpa [put_ne] using h.live
  waiting hwait := by simp [hpending] at hwait
  settled _ := ⟨by simpa [put_ne] using (h.settled hpending).1, .inl (put_self ..)⟩
  promoted := h.promoted

end Install

open Install

section

variable {s : Install}

theorem careful_leaves {o : FsOp} {s' : Install} (h : careful.leaves o s s')
    (hwrite : ∀ bytes, o ≠ .write bytes) : s' = s := by
  obtain ⟨hleft, -, hcopy⟩ := h
  cases o with
  | write bytes => exact absurd rfl (hwrite bytes)
  | copy_live => exact hcopy rfl
  | set_permissions | remove _ | rename _ _ | self_replace => exact hleft

/-- Behind `write_executable` the new binary is in the temp file, or an error is returned;
and nothing but the temp file has changed. -/
def Written (s : Install) (bytes : List UInt8) (result : Except UpdateError Unit) (t : Install) : Prop :=
  ∃ content, t = s.put .temp content ∧ (result = .ok () → content = some bytes) ∧
    ∀ e, result = .error e → e = .io .temp

theorem write_executable_meets (h : s.Kept) (bytes : List UInt8) :
    Meets careful (write_executable bytes) s (Written s bytes) Kept := by
  have hfailed (content : Option (List UInt8)) :
      Meets careful (.ret (.error (.io .temp))) (s.put .temp content) (Written s bytes) Kept :=
    meets_ret ⟨content, rfl, fun hok => (by cases hok), by rintro e ⟨⟩; rfl⟩ fun _ => h.put_temp content
  have hwritten := h.put_temp (some bytes)
  refine meets_op (fun _ => h) (fun u hu => ?_) (fun _ => ?_)
  · -- the write fails
    obtain ⟨content, rfl⟩ : ∃ content, u = s.put .temp content := by
      obtain hsame | ⟨torn, -, htorn⟩ := hu.1
      · exact ⟨_, hsame.trans (put_same s .temp).symm⟩
      · exact ⟨_, htorn⟩
    exact ⟨fun _ => h.put_temp content, hfailed content⟩
  refine meets_op (fun _ => hwritten) (fun u hu => ?_) (fun _ => ?_)
  · -- the permissions fail, and the temp file is removed, or stays
    rw [careful_leaves hu (by simp)]
    refine ⟨fun _ => hwritten, meets_op (fun _ => hwritten) (fun u hu => ?_) (fun _ => ?_)⟩
    · rw [careful_leaves hu (by simp)]
      exact ⟨fun _ => hwritten, hfailed (some bytes)⟩
    · have hnone : (s.put .temp (some bytes)).put .temp none = s.put .temp none := by
        simp only [put, Function.update_idem]
      show Meets careful _ ((s.put .temp (some bytes)).put .temp none) _ _
      rw [hnone]
      exact hfailed none
  · exact meets_ret ⟨_, rfl, fun _ => rfl, by rintro e ⟨⟩⟩ fun _ => hwritten

def Owed (s : Install) (call : Call) (result : Except UpdateError Unit) (t : Install) : Prop :=
  t.Kept ∧ s.Returned call result t

variable {t : Install}

theorem owed_error {call : Call} {file : InstallFile} (hkept : t.Kept)
    (hlive : t.fs .live = s.fs .live) : Owed s call (.error (.io file)) t := by
  refine ⟨hkept, fun _ _ _ => hlive, fun text htext => (by cases htext), fun _ hok => (by cases hok)⟩

theorem meets_vacant {o : FsOp} {next : Bool → UpdateProgram}
    {Q : Except UpdateError Unit → Install → Prop} {C : Install → Prop}
    (hvacant : t.fs .live = none) (hok : Meets careful (next true) (t.apply o) Q C) :
    Meets careful (.op o next) t Q C :=
  meets_op (fun hcrash => absurd hvacant hcrash) (fun _ hu => absurd hvacant hu.2.1) fun _ => hok

/-- The verified binary is in the temp file, and the install path is as it was. -/
structure Staged (s : Install) (bytes : List UInt8) (t : Install) : Prop where
  kept : t.Kept
  pending : t.pending = false
  temp : t.fs .temp = some bytes
  verified : bytes ∈ t.verified
  live : t.fs .live = s.fs .live

variable {bytes : List UInt8} {call : Call} {next : UpdateProgram}

theorem staged_meets (h : s.Kept) (hpending : s.pending = false)
    (hnext : ∀ t, Staged s bytes t → Meets careful next t (Owed s call) Kept) :
    Meets careful (.mark (Install.verify bytes) <|
        (write_executable bytes).andThen fun
          | .error error => .ret (.error error)
          | .ok () => next)
      s (Owed s call) Kept := by
  refine meets_mark (meets_andThen ((write_executable_meets (h.verify bytes) bytes).mono ?_ fun _ => id))
  rintro (error | _) t ⟨content, rfl, hcontent, herror⟩
  · obtain rfl := herror error rfl
    have hkept := (h.verify bytes).put_temp content
    exact meets_ret (owed_error hkept (by simp [put_ne, Install.verify])) fun _ => hkept
  · obtain rfl := hcontent rfl
    exact hnext _ ⟨(h.verify bytes).put_temp (some bytes), hpending, put_self .., List.mem_cons_self,
      by simp [put_ne, Install.verify]⟩

theorem Staged.remove_backup_meets (h : Staged s bytes t)
    (hnext : ∀ u, Staged s bytes u → Meets careful next u (Owed s call) Kept) :
    Meets careful (.op (.remove .backup) fun _ => next) t (Owed s call) Kept := by
  refine meets_op (fun _ => h.kept) (fun u hu => ?_) (fun _ => ?_)
  · rw [careful_leaves hu (by simp)]
    exact ⟨fun _ => h.kept, hnext t h⟩
  · exact hnext (t.put .backup none) ⟨h.kept.remove_backup h.pending, h.pending, by simpa [put_ne] using h.temp, h.verified,
      by simpa [put_ne] using h.live⟩

theorem Staged.renames_meet (h : Staged s bytes t) : Meets careful (.op (.rename .live .backup) fun moved =>
        if moved then rename_into_place else .ret (.error (.io .backup)))
      t (Owed s (.swap_binary bytes)) Kept := by
  refine meets_op (fun _ => h.kept) (fun u hu => ?_) (fun _ => ?_)
  · rw [careful_leaves hu (by simp)]
    exact ⟨fun _ => h.kept, meets_ret (owed_error h.kept h.live) fun _ => h.kept⟩
  refine meets_vacant (put_self ..) (meets_mark ?_)
  obtain ⟨hold, -⟩ := h.kept.settled h.pending
  -- the old binary is in the backup, the new one in place
  have hkept : (((t.apply (.rename .live .backup)).apply (.rename .temp .live)).applied).Kept := by
    refine ⟨⟨bytes, h.verified, ?_⟩, fun _ => ?_, fun hp => (by cases hp), h.kept.promoted⟩
    · simp [Install.apply, Install.applied, put_ne, h.temp]
    · simp [Install.apply, Install.applied, put_ne, hold]
  refine meets_ret ⟨hkept, fun _ herr => (by cases herr), fun _ herr => (by cases herr),
    fun hcall => (by cases hcall)⟩ fun _ => hkept

theorem swap_binary_meets (h : s.Kept) (hpending : s.pending = false) (bytes : List UInt8) :
    Meets careful (swap_binary bytes) s (Owed s (.swap_binary bytes)) Kept := by
  refine staged_meets h hpending fun t hstaged => meets_test ?_
  have hfound : Install.has .live t = true := by
    simpa [Install.has, Option.isSome_iff_ne_none] using hstaged.kept.occupied
  rw [hfound]
  exact hstaged.remove_backup_meets fun u hu => hu.renames_meet

theorem Staged.replacement_meets (h : Staged s bytes t) {resolved : Bool} : Meets careful
      (.op .copy_live fun copied =>
        if copied then
          .op .self_replace fun replaced =>
            if replaced then .mark Install.applied (.op (.remove .temp) fun _ => .ret (.ok ()))
            else .ret (.error (.io .live))
        else .ret (.error (.io .backup)))
      t (Owed s (.replace_running_exe resolved bytes)) Kept := by
  refine meets_op (fun _ => h.kept) (fun u hu => ?_) (fun _ => ?_)
  · rw [careful_leaves hu (by simp)]
    exact ⟨fun _ => h.kept, meets_ret (owed_error h.kept h.live) fun _ => h.kept⟩
  obtain ⟨hold, -⟩ := h.kept.settled h.pending
  have hcopied : (t.apply .copy_live).Kept := by
    refine ⟨?_, fun hp => ?_, fun _ => ⟨?_, .inr ?_⟩, h.kept.promoted⟩
    · simpa [Install.apply, put_ne] using h.kept.live
    · simp [Install.apply, h.pending] at hp
    · simp [Install.apply, put_ne, hold]
    · simp [Install.apply, hold]
  refine meets_op (fun _ => hcopied) (fun u hu => ?_) (fun _ => ?_)
  · rw [careful_leaves hu (by simp)]
    have hsame : (t.apply .copy_live).fs .live = s.fs .live := by
      simpa [Install.apply, put_ne] using h.live
    exact ⟨fun _ => hcopied, meets_ret (owed_error hcopied hsame) fun _ => hcopied⟩
  have hreplaced : (((t.apply .copy_live).apply .self_replace).applied).Kept := by
    refine ⟨⟨bytes, h.verified, ?_⟩, fun _ => ?_, fun hp => (by cases hp), h.kept.promoted⟩
    · simp [Install.apply, Install.applied, put_ne, h.temp]
    · simp [Install.apply, Install.applied, put_ne, hold]
  have hdone (t' : Install) (h' : t'.Kept) :
      Meets careful (.ret (.ok ())) t' (Owed s (.replace_running_exe resolved bytes)) Kept :=
    meets_ret ⟨h', fun _ herr => (by cases herr), fun _ herr => (by cases herr),
      fun hcall => (by cases hcall)⟩ fun _ => h'
  refine meets_mark (meets_op (fun _ => hreplaced) (fun u hu => ?_) (fun _ => ?_))
  · rw [careful_leaves hu (by simp)]
    exact ⟨fun _ => hreplaced, hdone _ hreplaced⟩
  · exact hdone _ (hreplaced.put_temp none)

theorem replace_running_exe_meets (h : s.Kept) (hpending : s.pending = false) (resolved : Bool)
    (bytes : List UInt8) :
    Meets careful (replace_running_exe resolved bytes) s (Owed s (.replace_running_exe resolved bytes)) Kept := by
  cases resolved with
  | false =>
    exact meets_ret ⟨h, fun _ _ _ => rfl, fun _ htext => (by cases htext), fun hcall => (by cases hcall)⟩ fun _ => h
  | true => exact staged_meets h hpending fun t hstaged => hstaged.remove_backup_meets fun u hu => hu.replacement_meets

/-- What `rollback` leaves behind its return. -/
def RolledBack (s : Install) (result : Except UpdateError Unit) (t : Install) : Prop :=
  t.Kept ∧ ((result = .ok () ∧ t.fs .live = some s.promoted) ∨
    ∃ file, result = .error (.io file) ∧ t.fs .live = s.fs .live)

theorem rollback_meets (h : s.Kept) : Meets careful rollback s (RolledBack s) Kept := by
  refine meets_test ?_
  cases hfound : Install.has .backup s with
  | false => exact meets_ret ⟨h, .inr ⟨_, rfl, rfl⟩⟩ fun _ => h
  | true =>
    have hbackup : s.fs .backup = some s.promoted := by
      rw [Install.has, Option.isSome_iff_ne_none] at hfound
      cases hpending : s.pending with
      | true => exact h.waiting hpending
      | false => exact (h.settled hpending).2.resolve_left hfound
    have hkept (t : Install) (ht : t.fs .backup = some s.promoted) (hp : t.promoted = s.promoted)
        (hv : t.verified = s.verified) : ((t.apply (.rename .backup .live)).restored).Kept := by
      have hput : ((t.apply (.rename .backup .live)).restored).fs .live = some s.promoted := by
        simp [Install.apply, Install.restored, put_ne, ht]
      refine ⟨⟨s.promoted, ?_, hput⟩, fun hp' => (by cases hp'), fun _ => ⟨?_, .inl ?_⟩, ?_⟩
      · show s.promoted ∈ t.verified
        rw [hv]
        exact h.promoted
      · rw [hput]
        exact congrArg some hp.symm
      · simp [Install.apply, Install.restored]
      · show t.promoted ∈ t.verified
        rw [hp, hv]
        exact h.promoted
    have hback (t : Install) (ht : t.fs .backup = some s.promoted) (hp : t.promoted = s.promoted)
        (hv : t.verified = s.verified) :
        Meets careful (.mark Install.restored (.ret (.ok ()))) (t.apply (.rename .backup .live))
          (RolledBack s) Kept := by
      refine meets_mark (meets_ret ⟨hkept t ht hp hv, .inl ⟨rfl, ?_⟩⟩ fun _ => hkept t ht hp hv)
      simp [Install.apply, Install.restored, put_ne, ht]
    refine meets_op (fun _ => h) (fun u hu => ?_) (fun _ => ?_)
    · -- the live file stays; the rename may replace it
      rw [careful_leaves hu (by simp)]
      refine ⟨fun _ => h, meets_op (fun _ => h) (fun u hu => ?_) (fun _ => ?_)⟩
      · rw [careful_leaves hu (by simp)]
        exact ⟨fun _ => h, meets_ret ⟨h, .inr ⟨_, rfl, rfl⟩⟩ fun _ => h⟩
      · exact hback s hbackup rfl rfl
    · refine meets_vacant (put_self ..) ?_
      exact hback (s.put .live none) (by simpa [put_ne] using hbackup) rfl rfl

theorem promote_meets (h : s.Kept) {call : Call} (hcall : call ≠ .rollback) :
    Meets careful promote s (Owed s call) Kept := by
  have hpassed (t : Install) (hlive : t.fs .live = s.fs .live) (hbackup : t.fs .backup = none)
      (hv : t.verified = s.verified) :
      Meets careful (.mark Install.passed (.ret (.ok ()))) t (Owed s call) Kept := by
    obtain ⟨bytes, hmem, hbytes⟩ := h.live
    have hpromoted : t.passed.promoted = bytes := by
      simp [Install.passed, hlive, hbytes]
    have hkept : t.passed.Kept := by
      refine ⟨⟨bytes, hv ▸ hmem, hlive.trans hbytes⟩, fun hp => (by cases hp), fun _ => ⟨?_, .inl hbackup⟩, ?_⟩
      · rw [hpromoted]
        exact hlive.trans hbytes
      · rw [hpromoted]
        exact hv ▸ hmem
    exact meets_mark (meets_ret ⟨hkept, fun _ herr => (by cases herr), fun _ herr => (by cases herr),
      fun hroll => absurd hroll hcall⟩ fun _ => hkept)
  refine meets_test ?_
  cases hfound : Install.has .backup s with
  | false => exact hpassed s rfl (by simpa [Install.has] using hfound) rfl
  | true =>
    refine meets_op (fun _ => h) (fun u hu => ?_) (fun _ => ?_)
    · rw [careful_leaves hu (by simp)]
      exact ⟨fun _ => h, meets_ret (owed_error h rfl) fun _ => h⟩
    · exact hpassed (s.put .backup none) (by simp [put_ne]) (put_self ..) rfl

theorem finalize_update_meets (h : s.Kept) (health : Except String Unit) :
    Meets careful (finalize_update health) s (Owed s (.finalize_update health)) Kept := by
  cases health with
  | ok _ => exact promote_meets h (by simp)
  | error text =>
    refine meets_andThen ((rollback_meets h).mono ?_ fun _ => id)
    rintro (error | _) t ⟨hkept, ⟨hok, hlive⟩ | ⟨file, herr, hlive⟩⟩
    · cases hok
    · obtain rfl := Except.error.inj herr
      exact meets_ret (owed_error hkept hlive) fun _ => hkept
    · refine meets_ret ⟨hkept, fun e herr hnot => ?_, fun _ _ => hlive, fun hcall => (by cases hcall)⟩
        fun _ => hkept
      exact absurd (Except.error.inj herr).symm (hnot text)
    · cases herr

/-- **One call** of a careful run. -/
theorem call_meets (h : s.Kept) (call : Call) (hupdates : call.updates = true → s.pending = false) :
    Meets careful call.program s (Owed s call) Kept := by
  cases call with
  | swap_binary bytes => exact swap_binary_meets h (hupdates rfl) bytes
  | replace_running_exe resolved bytes =>
    exact replace_running_exe_meets h (hupdates rfl) resolved bytes
  | finalize_update health => exact finalize_update_meets h health
  | promote => exact promote_meets h (by simp)
  | rollback =>
    refine (rollback_meets h).mono ?_ fun _ => id
    rintro result t ⟨hkept, ⟨rfl, hlive⟩ | ⟨file, rfl, hlive⟩⟩
    · exact ⟨hkept, fun _ herr => (by cases herr), fun _ herr => (by cases herr), fun _ _ => hlive⟩
    · exact owed_error hkept hlive

end

/-- One call of a careful run, with no update applied before the verdict on the previous
one. -/
abbrev CarefulStep := Restrict (CallStep careful) OneAtATime

theorem installed_kept (bytes : List UInt8) : (installed bytes).Kept where
  live := ⟨bytes, List.mem_singleton.2 rfl, rfl⟩
  waiting := fun hp => by cases hp
  settled := fun _ => ⟨rfl, .inl rfl⟩
  promoted := List.mem_singleton.2 rfl

/-- A swap that goes through, where there was no backup to remove. -/
def swapped (s : Install) (bytes : List UInt8) : Install :=
  ((((s.verify bytes).apply (.write bytes)).apply (.rename .live .backup)).apply (.rename .temp .live)).applied

theorem swap_exec (old new_bytes : List UInt8) :
    CallStep careful (installed old) ⟨.swap_binary new_bytes, some (.ok ())⟩
      (swapped (installed old) new_bytes) := by
  -- there is no backup, so its removal fails, and is ignored
  have hremove : careful.leaves (.remove .backup) (((installed old).verify new_bytes).apply (.write new_bytes))
      (((installed old).verify new_bytes).apply (.write new_bytes)) :=
    ⟨rfl, Option.some_ne_none _, fun h => by cases h⟩
  exact .mark (.ok trivial (.ok (Option.some_ne_none _) (.test (.fail hremove
    (.ok (Option.some_ne_none _) (.ok (Option.some_ne_none _) (.mark (.ret _ _))))))))

end OpenGeni.Update
