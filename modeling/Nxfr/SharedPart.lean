/-
Runs of `receive_file` on several connections, for files that resolve to the
same path: they share the `.part` file, and each takes its steps when its
connection lets it.

A step is one call on the disk, or what lies between two: the test whether
the `.part` file exists, its opening, a frame with the write of its chunk, the
checks after the loop, `resolve_collision`, the rename. What a frame asks for
is `react`, which reads nothing of the disk; `receiveStep` is `react` and then
its effect (`receiveStep_reacts`). The journal has files of its own, so saving
it shows here only where it fails. The files are those of `Inodes`: a run
writes through the handle it has opened, whatever its name leads to by then.
-/
import Nxfr.Receiver
import Nxfr.Inodes

namespace Nxfr

/-- What a frame asks of a run in its loop. -/
inductive Reaction where
  | ignore
  | store (data : Bytes) (last : Bool)
  | acknowledge (last : Bool)
  | refuse (failure : Fail) (remove : Bool)

section

variable (x : Ext) (a : RecvArgs)

/-- A CHUNK frame. -/
def reactChunk (l : RecvLocals) (f : Frame) : Reaction :=
  if f.streamId ≠ a.streamId then .ignore
  else if f.payload.length < 41 then .ignore
  else
    let offset := fromBeBytes (f.payload.take 8)
    let chunkHash := (f.payload.drop 8).take 32
    let data := f.payload.drop 40
    if chunkHash ≠ (x.sha256 data).bytes then .refuse (.text "chunk hash mismatch") true
    else if offset = l.receivedBytes then
      let newTotal := l.receivedBytes + data.length
      if newTotal > a.expectedSize then .refuse (.text "chunk exceeds expected file size") true
      else .store data (f.isLastChunk || newTotal == a.expectedSize)
    else if offset < l.receivedBytes then
      if offset + data.length ≤ l.receivedBytes then .acknowledge (f.isLastChunk || l.receivedBytes == a.expectedSize)
      else .refuse (.text "overlapping chunk offset") false
    else .refuse (.text "out-of-order chunk received") false

def react (l : RecvLocals) (f : Frame) : Reaction := match f.kind with
  | .chunk => reactChunk x a l f
  | .control => match f.control with
    | .error e => .refuse (.codec e) false
    | .ok (.transferCancel _ _) => .refuse (.text "transfer cancelled") true
    | .ok (.sessionClose _) => .refuse (.text "session closed during receive") false
    | .ok _ => .ignore
  | .keepalive => .ignore

end

namespace SharedPart

open Inodes

abbrev Tree := Inodes.Tree String UInt8

/-- Where a run is: before the test whether the `.part` file exists; before
the call that creates it, reads it or opens it to append; in the loop; after
it; before the `.part` file is removed for an error; before
`resolve_collision`; before the rename; returned. -/
inductive Stage where
  | start
  | creating
  | reading
  | appending (existing : Bytes)
  | receiving (file : Handle) (l : RecvLocals)
  | checking (l : RecvLocals)
  | removing (failure : Fail)
  | resolving
  | moving (finalDest : Path)
  | returned (r : Except Fail Path)

/-- Between its first look at the `.part` file and its return. -/
def Stage.active : Stage → Bool
  | .start | .returned _ => false
  | _ => true

/-- What a run does next. A call that fails, or a connection that is lost,
ends it; a write that fails may have written something. -/
inductive Action where
  | check
  | create
  | read
  | openAppend
  | frame (f : Frame)
  | verify
  | remove
  | resolve (now : Nat)
  | rename
  | fail (written : Bytes)

/-- One `receive_file`: its parameters, whether its resume state has partial
progress for the file, and where it is. -/
structure Run where
  args : RecvArgs
  hasPartial : Bool
  stage : Stage

section

variable (x : Ext)

/-- The effect of a frame. -/
def reactTo (file : Handle) (l : RecvLocals) (t : Tree) : Reaction → Stage × Tree
  | .ignore => (.receiving file l, t)
  | .store data last =>
    let l := ⟨l.receivedBytes + data.length, l.hasher ++ data⟩
    let (file, t) := t.write file data
    (if last then .checking l else .receiving file l, t)
  | .acknowledge last => (if last then .checking l else .receiving file l, t)
  | .refuse failure remove => (if remove then .removing failure else .returned (.error failure), t)

/-- A step of a run; one that it is not at leaves everything as it is. -/
def act (r : Run) (t : Tree) : Action → Stage × Tree
  | .check => match r.stage with
    | .start => (if r.hasPartial && t.view.exists? r.args.partPath then .reading else .creating, t)
    | stage => (stage, t)
  | .create => match r.stage with
    | .creating => match t.create r.args.partPath with
      | some (file, t) => (.receiving file ⟨0, []⟩, t)
      | none => (.returned (.error .io), t)
    | stage => (stage, t)
  | .read => match r.stage with
    | .reading => match t.view.read r.args.partPath with
      | some existing =>
        (if existing.length = r.args.expectedSize ∧ x.sha256 existing = r.args.expectedHash then .resolving
          else .appending existing, t)
      | none => (.returned (.error .io), t)
    | stage => (stage, t)
  | .openAppend => match r.stage with
    | .appending existing => match t.openAppend r.args.partPath with
      | some file => (.receiving file ⟨existing.length, existing⟩, t)
      | none => (.returned (.error .io), t)
    | stage => (stage, t)
  | .frame f => match r.stage with
    | .receiving file l => reactTo file l t (react x r.args l f)
    | stage => (stage, t)
  | .verify => match r.stage with
    | .checking l =>
      (if x.sha256 l.hasher ≠ r.args.expectedHash then .removing (.text "whole-file hash mismatch")
        else if l.receivedBytes ≠ r.args.expectedSize then .removing (.text "file size mismatch")
        else .resolving, t)
    | stage => (stage, t)
  | .remove => match r.stage with
    | .removing failure => (.returned (.error failure), (t.remove r.args.partPath).getD t)
    | stage => (stage, t)
  | .resolve now => match r.stage with
    | .resolving => (.moving (resolveCollision now t.view r.args.finalPath), t)
    | stage => (stage, t)
  | .rename => match r.stage with
    | .moving finalDest => match t.rename r.args.partPath finalDest with
      | some t => (.returned (.ok finalDest), t)
      | none => (.returned (.error .io), t)
    | stage => (stage, t)
  | .fail written => match r.stage with
    | .start => (.start, t)
    | .returned r => (.returned r, t)
    | .receiving file _ => (.returned (.error .io), (t.write file written).2)
    | _ => (.returned (.error .io), t)

/-- The disk and the runs. -/
structure State where
  tree : Tree
  runs : Nat → Run

/-- The run that goes on, and how. -/
structure Event where
  run : Nat
  action : Action

def State.setRun (s : State) (i : Nat) (stage : Stage) (tree : Tree) : State :=
  { tree, runs := fun j => if j = i then { s.runs i with stage } else s.runs j }

def step (s : State) (e : Event) : State :=
  s.setRun e.run (act x (s.runs e.run) s.tree e.action).1 (act x (s.runs e.run) s.tree e.action).2

/-- The runs at their calls, on the disk they find. -/
def start (tree : Tree) (args : Nat → RecvArgs) (hasPartial : Nat → Bool) : State :=
  { tree, runs := fun i => { args := args i, hasPartial := hasPartial i, stage := .start } }

end

end SharedPart

end Nxfr
