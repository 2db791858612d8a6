/-
The mobile library sending to the mobile library: `do_send_file` against
`do_receive_file`, for any tree and any receive directory
(`mobile_delivers_iff`).

The receiver leaves the chunk loop of a file on a CHUNK frame, or on
TRANSFER_COMPLETE. An empty file has no chunk; where another file follows,
its metadata is read in the chunk loop and passed over, and both sides wait.
-/
import Nxfr.MobileReceiverFacts
import Nxfr.MobileToDaemon
import Nxfr.PathLimits

namespace Nxfr

open Network Disk

section

variable (x : Ext) (o : SendTask) (cfg : MobileConfig) (fs : Fs) (name : String) (entries : List LocalSendEntry)

/-- The temporary file of a node at the `k`th draw. -/
def tmpPathOf (k : Nat) (n : TreeNode) : Path :=
  renameLast (tmpName o.transferId (cfg.rand k)) (cfg.receiveDir ++ n.path)

/-- A tree, offered to a receiver that takes it. The names drawn for the
temporary files are new ones. -/
structure MobileOffered : Prop where
  compact : x.Compact
  scanned : scanSendPath x o.filePath = .ok (name, entries)
  proper : o.filePath.Proper
  short : ∀ n ∈ o.filePath.nodes, ∀ data, n.content = some data → data.length < 2 ^ 64
  consent : cfg.accept = true
  disk : fs.Sound
  drawn : ∀ k, ∀ n ∈ o.filePath.nodes, n.content ≠ none → fs (tmpPathOf o cfg k n) = none ∧
    ∀ n' ∈ o.filePath.nodes, ¬ tmpPathOf o cfg k n <+: cfg.receiveDir ++ n'.path

/-- A file whose path the sanitiser takes and whose place is free, with no
file above it and room for the temporary name beside it. -/
structure Suitable (n : TreeNode) : Prop where
  accepted : ∃ sanitized, sanitizePath (joinSlash n.path) = .ok sanitized
  free : fs (cfg.receiveDir ++ n.path) = none
  clear : ∀ q, q <+: cfg.receiveDir ++ n.path → fs.isFile q = false
  fits : ∀ k, Limits.fits (tmpPathOf o cfg k n) = true

/-- The receive directory is there or can be made. -/
def RootMade : Prop :=
  ∀ q, q <+: cfg.receiveDir → fs.isFile q = false ∧ (fs q = none → Limits.fits q = true)

/-- Every file has bytes, but for the last one. -/
def FullButLast (ns : List TreeNode) : Prop := ∀ n ∈ (fileNodes ns).dropLast, n.content ≠ some []

/-- The sanitiser takes the path of every directory. -/
def DirsAccepted : Prop :=
  ∀ n ∈ o.filePath.nodes, n.content = none → ∃ sanitized, sanitizePath (joinSlash n.path) = .ok sanitized

/-- What a transfer needs: the encoder takes the request, the sanitiser every
path, nothing is in the way in the receive directory, which can be made, no
name is too long, and no file but the last is empty. -/
structure Deliverable : Prop where
  encoded : encodeControl x (o.requestMessage name entries) = .ok ()
  root : RootMade cfg fs
  dirs : DirsAccepted o
  files : ∀ n ∈ fileNodes o.filePath.nodes, Suitable o cfg fs n
  full : FullButLast o.filePath.nodes

def offerOf : PendingOffer := { transferId := o.transferId, manifest := entries.map (·.manifestEntry) }

/-- An entry stored under its path. -/
def LocalSendEntry.storedAt (root : Path) (e : LocalSendEntry) : StoredFile :=
  { fileId := e.fileId, relativePath := e.relativePath, size := e.size, sha256 := e.sha256
    dest := joinPath root e.relativePath, content := e.data }

/-- `do_send_file` has reported success, and `do_receive_file` has stored
every file under its path, where it is. -/
structure MobileDelivered (n : Net Frame MobileSend MobileSession) : Prop where
  reported : n.left.pc = .returned (.ok .complete)
  acked : ∃ f ∈ n.gotLeft, f.control = .ok (.transferAck o.transferId .success none)
  stored : n.right.stored = (filesOf entries).map (·.storedAt cfg.receiveDir)
  there : ∀ node ∈ o.filePath.nodes, ∀ data, node.content = some data →
    n.right.fs (cfg.receiveDir ++ node.path) = some (.file data)

/-- `do_receive_file` at the top of its loop. -/
def takingFiles (d : Fs) (draws receivedFiles : Nat) (stored : List StoredFile) (conn : Conn) : MobileSession :=
  .receiving (offerOf o entries) { fs := d, conn, draws, receivedFiles, phase := .files, stored }

/-- `do_receive_file` has given up. -/
def GaveUp (s : MobileSession) : Prop := ∃ offer st e id, s = .receiving offer st ∧ st.phase = .returned (.error e) ∧
  st.conn = quiet id

end

theorem MobileDelivered.success {o : SendTask} {cfg : MobileConfig} {entries : List LocalSendEntry}
    {n : Net Frame MobileSend MobileSession} (h : MobileDelivered o cfg entries n) : ∃ f ∈ n.gotLeft, IsSuccess f := by
  obtain ⟨f, hf, hc⟩ := h.acked
  exact ⟨f, hf, _, _, hc⟩

theorem MobileIncoming.dropped_gaveUp {x : Ext} (i : MobileIncoming x) (id : Nat) : GaveUp (i.dropped (quiet id)) :=
  ⟨i.offer, (i.state i.data.length (quiet id)).dropTmp i.a .io, .io, id, rfl, rfl, rfl⟩

theorem GaveUp.halts {x : Ext} {cfg : MobileConfig} {s : MobileSession} (h : GaveUp s) :
    mobileReceiver x cfg s = .halt false := by
  obtain ⟨offer, st, e, id, rfl, hphase, hconn⟩ := h
  obtain ⟨fs, conn, draws, received, phase, stored⟩ := st
  simp only at hphase hconn
  subst hphase hconn
  rfl

/-- What is written goes out. -/
theorem mobileReceiver_wrote {x : Ext} {cfg : MobileConfig} {s : MobileSession} {id : Nat} {m : ControlMessage}
    (h : s.conn = wrote id m) :
    mobileReceiver x cfg s = .send (controlFrame id m) (s.withConn (quiet (id + 1))) := by
  simp [mobileReceiver, h, wrote, quiet]

/-! ## What the receiver answers -/

section

variable {x : Ext} {o : SendTask} {cfg : MobileConfig} {entries : List LocalSendEntry} {d : Fs} {n : TreeNode}
  {data : Bytes} {m draws receivedFiles : Nat} {stored : List StoredFile}

/-- The receiver after it has answered the metadata of a node. -/
def metadataState (o : SendTask) (d : Fs) (id m draws receivedFiles : Nat) (stored : List StoredFile) : MobileState :=
  { fs := d, conn := wrote m (.fileMetadataAck o.transferId id id true), draws, receivedFiles, phase := .files, stored }

theorem metadata_read (hx : x.Compact) (id m c : Nat) :
    mobileSessionStep x cfg (takingFiles o entries d draws receivedFiles stored (quiet m))
        (controlFrame c (o.metadataMessage (entryOf x id n))) =
      .receiving (offerOf o entries) (openTmp x cfg (offerOf o entries) id id (joinSlash n.path)
        (n.content.getD []).length ((n.content.map x.sha256).getD zeroDigest)
        (metadataState o d id m draws receivedFiles stored)) := by
  have hsend : (quiet m).sendControl x (.fileMetadataAck o.transferId id id true) =
      some (wrote m (.fileMetadataAck o.transferId id id true)) :=
    quiet_sendControl (encode_small hx (by simp [ControlMessage.volume]) (by simp))
  simp only [mobileSessionStep, takingFiles, mobileStep, controlFrame, SendTask.metadataMessage, entryOf,
    mobileMetadata, MobileState.send, offerOf, hsend, metadataState]

/-- A path that is refused ends the transfer. -/
theorem metadata_refused (hx : x.Compact) {s : MobileSession}
    (hs : s = takingFiles o entries d draws receivedFiles stored (quiet m)) (id c : Nat) {e : PathError}
    (hpath : sanitizePath (joinSlash n.path) = .error e) :
    ∃ r, mobileReceiver x cfg (mobileSessionStep x cfg s (controlFrame c (o.metadataMessage (entryOf x id n)))) =
      .send (controlFrame m (.fileMetadataAck o.transferId id id true)) r ∧ GaveUp r := by
  rw [hs, metadata_read hx id m c]
  simp only [openTmp, resolveSafePath, hpath]
  exact ⟨_, rfl, _, _, _, m + 1, rfl, rfl, rfl⟩

/-- A file above the destination ends the transfer. -/
theorem metadata_blocked (hx : x.Compact) (hp : o.filePath.Proper) (hn : n ∈ o.filePath.nodes) (hd : d.Sound)
    (hroot : d cfg.receiveDir = some .dir) {s : MobileSession}
    (hs : s = takingFiles o entries d draws receivedFiles stored (quiet m)) (id c : Nat)
    (hpath : sanitizePath (joinSlash n.path) = .ok (joinSlash n.path)) {q : Path}
    (hq : q <+: (cfg.receiveDir ++ n.path).dropLast) (hfile : d.isFile q = true) :
    ∃ r, mobileReceiver x cfg (mobileSessionStep x cfg s (controlFrame c (o.metadataMessage (entryOf x id n)))) =
      .send (controlFrame m (.fileMetadataAck o.transferId id id true)) r ∧ GaveUp r := by
  have hres : resolveSafePath d cfg.receiveDir (joinSlash n.path) = .ok (cfg.receiveDir ++ n.path) := by
    rw [resolveSafePath_ok hpath (by simp [Fs.exists?, hroot]), joinPath_node hp hn]
  have hparent : d.isDir (cfg.receiveDir ++ n.path).dropLast = false := by
    rw [Fs.isDir]
    split
    · rename_i hdir
      have := hd.grounded hdir q hq
      simp [Fs.isFile, this] at hfile
    · rfl
  rw [hs, metadata_read hx id m c]
  simp only [openTmp, metadataState, hres, Fs.createDirAll_none hq hfile, Option.getD_none, Fs.create, renameLast_dropLast, hparent,
    Bool.false_and, Bool.false_eq_true, if_false]
  exact ⟨_, rfl, _, _, _, m + 1, rfl, rfl, rfl⟩

/-- A temporary name that is too long ends the transfer. -/
theorem metadata_cramped (hx : x.Compact) (hp : o.filePath.Proper) (hn : n ∈ o.filePath.nodes)
    (hroot : d cfg.receiveDir = some .dir) {s : MobileSession}
    (hs : s = takingFiles o entries d draws receivedFiles stored (quiet m)) (id c : Nat)
    (hpath : sanitizePath (joinSlash n.path) = .ok (joinSlash n.path))
    (hfits : Limits.fits (tmpPathOf o cfg draws n) = false) :
    ∃ r, mobileReceiver x cfg (mobileSessionStep x cfg s (controlFrame c (o.metadataMessage (entryOf x id n)))) =
      .send (controlFrame m (.fileMetadataAck o.transferId id id true)) r ∧ GaveUp r := by
  have hres : resolveSafePath d cfg.receiveDir (joinSlash n.path) = .ok (cfg.receiveDir ++ n.path) := by
    rw [resolveSafePath_ok hpath (by simp [Fs.exists?, hroot]), joinPath_node hp hn]
  have hname : renameLast (tmpName (offerOf o entries).transferId (cfg.rand draws)) (cfg.receiveDir ++ n.path) =
      tmpPathOf o cfg draws n := rfl
  rw [hs, metadata_read hx id m c]
  simp only [openTmp, metadataState, hres, hname, Fs.create, hfits, Bool.and_false, Bool.false_eq_true, if_false]
  exact ⟨_, rfl, _, _, _, m + 1, rfl, rfl, rfl⟩

end

/-! ## A file -/

section

variable (o : SendTask) (cfg : MobileConfig) (fs : Fs)

/-- The disk with the files of some nodes. -/
structure Received (before : List TreeNode) (d : Fs) : Prop where
  layout : Layout fs cfg.receiveDir o.filePath.nodes (fileNodes before) d
  root : d cfg.receiveDir = some .dir

end

namespace MobileOffered

variable {x : Ext} {o : SendTask} {cfg : MobileConfig} {fs : Fs} {name : String} {entries : List LocalSendEntry}
  (h : MobileOffered x o cfg fs name entries) {before after : List TreeNode} {d : Fs} {n : TreeNode} {data : Bytes}
include h

/-- The directory of a file is made, where no file is in the way. -/
theorem parent_made (hd : Received o cfg fs before d) (hn : n ∈ o.filePath.nodes) (hnew : n ∉ before)
    (hclear : ∀ q, q <+: (cfg.receiveDir ++ n.path).dropLast → fs.isFile q = false) {k : Nat}
    (hfits : Limits.fits (tmpPathOf o cfg k n) = true) :
    ∃ d', d.createDirAll (cfg.receiveDir ++ n.path).dropLast = some d' ∧ Received o cfg fs before d' ∧
      d' (cfg.receiveDir ++ n.path).dropLast = some .dir := by
  obtain ⟨d', hd'⟩ := Fs.createDirAll_isSome (d := d) (p := (cfg.receiveDir ++ n.path).dropLast) (by
    intro q hq
    by_contra hfile
    have := hd.layout.isFile_above (nodes_apart h.proper) hn (fun hmem => hnew (mem_fileNodes.mp hmem).1)
      (hq.trans (List.dropLast_prefix _)) (by simpa using hfile)
    rw [hclear q hq] at this
    cases this) (by
    intro q hq _
    rw [← renameLast_dropLast (f := tmpName o.transferId (cfg.rand k))] at hq
    exact fits_above hfits (hq.trans (List.dropLast_prefix _)))
  have hlayout := hd.layout.createDirAll (needed_parent hn (nodes_ne_nil hn))
  rw [hd', Option.getD_some] at hlayout
  refine ⟨d', hd', ⟨hlayout, ?_⟩, (Fs.createDirAll_dir hd').self⟩
  rw [(Fs.createDirAll_eq hd').2, if_neg (by simp [hd.root]), hd.root]

/-- Where a temporary file goes there is nothing. -/
theorem tmp_free (hd : Received o cfg fs before d) (hn : n ∈ o.filePath.nodes) (hc : n.content = some data) (draws : Nat) :
    d (tmpPathOf o cfg draws n) = none := by
  obtain ⟨hfree, hother⟩ := h.drawn draws n hn (by simp [hc])
  refine hd.layout.free hfree ?_ ?_
  · rintro (hp | ⟨n', hn', hp, _⟩)
    · have hlen := hp.length_le
      have hpos := List.length_pos_iff.mpr (nodes_ne_nil hn)
      rw [tmpPathOf, renameLast_length, List.length_append] at hlen
      omega
    · exact hother n' hn' hp
  · intro n' hn' he
    exact hother n' (hd.layout.files hn').1 (he ▸ List.prefix_rfl)

/-- The file on its way in. -/
def incoming (hd : Received o cfg fs before d) (hn : n ∈ o.filePath.nodes) (hc : n.content = some data)
    (hparent : d (cfg.receiveDir ++ n.path).dropLast = some .dir) (id draws receivedFiles : Nat)
    (stored : List StoredFile) : MobileIncoming x where
  offer := offerOf o entries
  a := { fileId := id, streamId := id, relativePath := joinSlash n.path, expectedSize := data.length
         expectedHash := x.sha256 data, finalPath := cfg.receiveDir ++ n.path, tmpPath := tmpPathOf o cfg draws n }
  data := data
  fs := d
  draws := draws + 1
  receivedFiles := receivedFiles
  stored := stored
  short := h.short n hn data hc
  size := rfl
  hash := rfl
  beside := renameLast_dropLast
  home := hparent
  free := h.tmp_free hd hn hc draws

/-- The same, after the files of the nodes before. -/
def fileAt (hd : Received o cfg fs before d) (hn : n ∈ o.filePath.nodes) (hc : n.content = some data)
    (hparent : d (cfg.receiveDir ++ n.path).dropLast = some .dir) (draws : Nat) : MobileIncoming x :=
  h.incoming hd hn hc hparent (1 + before.length) draws (fileNodes before).length
    ((filesOf (numbered x 1 before)).map (·.storedAt cfg.receiveDir))

/-- The metadata is answered, and the chunk loop waits. -/
theorem metadata_opened {d₀ : Fs} (hd : Received o cfg fs before d) (hn : n ∈ o.filePath.nodes) (hc : n.content = some data)
    (hparent : d (cfg.receiveDir ++ n.path).dropLast = some .dir)
    (hmade : d₀.createDirAll (cfg.receiveDir ++ n.path).dropLast = some d) (hroot : d₀ cfg.receiveDir = some .dir)
    (hpath : sanitizePath (joinSlash n.path) = .ok (joinSlash n.path)) {s : MobileSession} {m draws receivedFiles : Nat}
    (hfits : Limits.fits (tmpPathOf o cfg draws n) = true) {stored : List StoredFile} (hs : s = takingFiles o entries d₀ draws receivedFiles stored (quiet m)) (id c : Nat) :
    mobileReceiver x cfg (mobileSessionStep x cfg s (controlFrame c (o.metadataMessage (entryOf x id n)))) =
      .send (controlFrame m (.fileMetadataAck o.transferId id id true))
        ((h.incoming hd hn hc hparent id draws receivedFiles stored).waiting 0 (quiet (m + 1))) := by
  have hres : resolveSafePath d₀ cfg.receiveDir (joinSlash n.path) = .ok (cfg.receiveDir ++ n.path) := by
    rw [resolveSafePath_ok hpath (by simp [Fs.exists?, hroot]), joinPath_node h.proper hn]
  have htmp := h.tmp_free hd hn hc draws
  have hcreate : d.create (tmpPathOf o cfg draws n) = some (d.set (tmpPathOf o cfg draws n) (some (.file []))) := by
    have hbeside : (tmpPathOf o cfg draws n).dropLast = (cfg.receiveDir ++ n.path).dropLast := renameLast_dropLast
    simp [Fs.create, hbeside, Fs.isDir, hparent, htmp, hfits]
  have hstep : mobileSessionStep x cfg s (controlFrame c (o.metadataMessage (entryOf x id n))) =
        (h.incoming hd hn hc hparent id draws receivedFiles stored).waiting 0
          (wrote m (.fileMetadataAck o.transferId id id true)) := by
    rw [hs, metadata_read h.compact id m c]
    simp only [openTmp, metadataState, hres, hmade, Option.getD_some]
    rw [show renameLast (tmpName (offerOf o entries).transferId (cfg.rand draws)) (cfg.receiveDir ++ n.path) =
      tmpPathOf o cfg draws n from rfl, hcreate]
    simp [MobileIncoming.waiting, MobileIncoming.state, MobileIncoming.disk, incoming, hc]
  rw [hstep]
  exact mobileReceiver_wrote rfl

section

variable (hd : Received o cfg fs before d) (hn : n ∈ o.filePath.nodes) (hc : n.content = some data)
  (hparent : d (cfg.receiveDir ++ n.path).dropLast = some .dir) (id draws receivedFiles : Nat) (stored : List StoredFile)
include hd hn hc hparent

theorem disk_free (hnew : n ∉ before) (hfree : fs (cfg.receiveDir ++ n.path) = none) (m : Nat) :
    (h.incoming hd hn hc hparent id draws receivedFiles stored).disk m (cfg.receiveDir ++ n.path) = none := by
  have hne : cfg.receiveDir ++ n.path ≠ tmpPathOf o cfg draws n := by
    intro he
    exact (h.drawn draws n hn (by simp [hc])).2 n hn (he ▸ List.prefix_rfl)
  rw [MobileIncoming.disk]
  refine (set_other hne).trans ?_
  exact hd.layout.place_free (nodes_apart h.proper) hn (by simp [hc]) (nodes_ne_nil hn)
    (fun hmem => hnew (mem_fileNodes.mp hmem).1) hfree

/-- A free place is where the file goes. -/
theorem dest_free (hnew : n ∉ before) (hfree : fs (cfg.receiveDir ++ n.path) = none) :
    (h.incoming hd hn hc hparent id draws receivedFiles stored).dest cfg = cfg.receiveDir ++ n.path :=
  resolveCollision_free (h.disk_free hd hn hc hparent id draws receivedFiles stored hnew hfree _)

theorem placed_free (hnew : n ∉ before) (hfree : fs (cfg.receiveDir ++ n.path) = none) {k : Nat}
    (hfits : Limits.fits (tmpPathOf o cfg k n) = true) :
    (h.incoming hd hn hc hparent id draws receivedFiles stored).Placed cfg := by
  rw [MobileIncoming.Placed, h.dest_free hd hn hc hparent id draws receivedFiles stored hnew hfree]
  refine ⟨?_, fits_of_tmpName hfits⟩
  rw [h.disk_free hd hn hc hparent id draws receivedFiles stored hnew hfree]
  simp

/-- A place that is taken is not. -/
theorem dest_taken (htaken : fs (cfg.receiveDir ++ n.path) ≠ none) :
    (h.incoming hd hn hc hparent id draws receivedFiles stored).dest cfg ≠ cfg.receiveDir ++ n.path := by
  refine resolveCollision_taken (p := cfg.receiveDir ++ n.path) (by simp [nodes_ne_nil hn]) ?_
  rw [MobileIncoming.disk, Fs.set]
  split
  · simp
  · change d (cfg.receiveDir ++ n.path) ≠ none
    rw [hd.layout.kept htaken]
    exact htaken

/-- The disk after the file. -/
theorem received_next (hnew : n ∉ before) (hfree : fs (cfg.receiveDir ++ n.path) = none) :
    Received o cfg fs (before ++ [n]) ((h.incoming hd hn hc hparent id draws receivedFiles stored).placed cfg) := by
  have hfile : n.content ≠ none := by simp [hc]
  have hplace : d (cfg.receiveDir ++ n.path) = none :=
    hd.layout.place_free (nodes_apart h.proper) hn hfile (nodes_ne_nil hn)
      (fun hmem => hnew (mem_fileNodes.mp hmem).1) hfree
  have heq : (h.incoming hd hn hc hparent id draws receivedFiles stored).placed cfg =
      d.set (cfg.receiveDir ++ n.path) (some (.file data)) := by
    rw [MobileIncoming.placed, h.dest_free hd hn hc hparent id draws receivedFiles stored hnew hfree]
    rfl
  rw [heq]
  refine ⟨?_, ?_⟩
  · rw [fileNodes_append_file hfile]
    exact hd.layout.place hn hc hparent hplace
  · rw [set_other]
    · exact hd.root
    · intro he
      rw [← he, hd.root] at hplace
      cases hplace

end

end MobileOffered

/-! ## How a run ends -/

section

variable {x : Ext} {o : SendTask} {cfg : MobileConfig} {entries : List LocalSendEntry}
  {net : Net Frame MobileSend MobileSession}

/-- The acknowledgement of success is all that is left to read. -/
theorem acked_ends {c m : Nat} {st : MobileState} {offer : PendingOffer}
    (hleft : net.left = { pc := .awaitAck, nextMessageId := c }) (hL : net.toLeft = [])
    (hright : net.right = .receiving offer st) (hphase : st.phase = .returned (.ok ()))
    (hconn : st.conn = wrote m (.transferAck o.transferId .success none))
    (hstored : st.stored = (filesOf entries).map (·.storedAt cfg.receiveDir))
    (hthere : ∀ node ∈ o.filePath.nodes, ∀ data, node.content = some data →
      st.fs (cfg.receiveDir ++ node.path) = some (.file data)) :
    Ends (doSendFile x o) (mobileReceiver x cfg) (MobileDelivered o cfg entries) net := by
  have hsend : mobileReceiver x cfg net.right =
      .send (controlFrame m (.transferAck o.transferId .success none))
        (.receiving offer { st with conn := quiet (m + 1) }) := by
    rw [hright]
    exact mobileReceiver_wrote hconn
  have hrecv : doSendFile x o net.left = .recv (mobileTransferAck net.left) net.left.lost := by
    rw [hleft]
    rfl
  have hr := (Reaches.right_send (p := doSendFile x o) hsend).trans
    (.left_only (controlFrame m (.transferAck o.transferId .success none)) hrecv (by simp [hL]))
  have hhalt : mobileReceiver x cfg (.receiving offer { st with conn := quiet (m + 1) }) = .halt false := by
    obtain ⟨fs, conn, draws, received, phase, stored⟩ := st
    simp only at hphase
    subst hphase
    rfl
  rw [Settles.ends_iff ⟨hr, by
    intro s
    cases s with
    | left => rw [hleft]; rfl
    | right => simp [step, hhalt]⟩]
  exact ⟨by rw [hleft]; rfl, ⟨controlFrame m (.transferAck o.transferId .success none), by simp, rfl⟩, hstored, hthere⟩

/-- Both sides wait, or the sender has failed. -/
theorem not_ends_of_hang {k : Frame → MobileSession} {lost : MobileSession} (hR : net.toRight = []) (hL : net.toLeft = [])
    (hright : mobileReceiver x cfg net.right = .recv k lost)
    (hleft : (∃ k lost, doSendFile x o net.left = .recv k lost) ∨ ∃ e, net.left.pc = .returned (.error e)) :
    ¬ Ends (doSendFile x o) (mobileReceiver x cfg) (MobileDelivered o cfg entries) net := by
  have hhalt : ∀ {e}, net.left.pc = .returned (.error e) → doSendFile x o net.left = .halt false := by
    intro e he
    simp [doSendFile, he]
  have hstuck : Stuck (doSendFile x o) (mobileReceiver x cfg) net := by
    rcases hleft with ⟨k', lost', hl⟩ | ⟨e, he⟩
    · exact .of_recv hl hright hR hL
    · intro s
      cases s with
      | left => simp [step, hhalt he]
      | right => simp [step, hright, hR, hhalt he, Act.closed]
  rw [Settles.ends_iff ⟨.refl, hstuck⟩]
  intro hd
  rcases hleft with ⟨k', lost', hl⟩ | ⟨e, he⟩
  · simp [doSendFile, hd.reported] at hl
  · rw [hd.reported] at he
    cases he

end

namespace MobileOffered

variable {x : Ext} {o : SendTask} {cfg : MobileConfig} {fs : Fs} {name : String} {entries : List LocalSendEntry}
  (h : MobileOffered x o cfg fs name entries) {before after : List TreeNode} {d : Fs} {n : TreeNode} {data : Bytes}
  {net : Net Frame MobileSend MobileSession} {c id m draws receivedFiles : Nat} {stored : List StoredFile}
include h

/-- The files of the tree around one of them. -/
theorem files_around (hnodes : o.filePath.nodes = before ++ n :: after) (hfile : n.content ≠ none) :
    filesOf entries = filesOf (numbered x 1 before) ++
      entryOf x (1 + before.length) n :: filesOf (numbered x (1 + before.length + 1) after) := by
  rw [scanSendPath_eq h.scanned, hnodes, numbered_append]
  simp only [filesOf, List.filter_append]
  congr 1
  exact filesOf_cons_file hfile

/-- A file that is not under its path stays so. -/
theorem not_ends_of_misplaced (hnodes : o.filePath.nodes = before ++ n :: after) (hfile : n.content ≠ none)
    {f : StoredFile}
    (hstored : net.right.stored = (filesOf (numbered x 1 before)).map (·.storedAt cfg.receiveDir) ++ [f])
    (hdest : f.dest ≠ cfg.receiveDir ++ n.path) :
    ¬ Ends (doSendFile x o) (mobileReceiver x cfg) (MobileDelivered o cfg entries) net := by
  intro hends
  obtain ⟨t, ht, _, hPt⟩ := hends.stuck .refl
  have hgrows := Reaches.stored_grows ht
  rw [hstored, hPt.stored, h.files_around hnodes hfile, List.map_append, List.prefix_append_right_inj, List.map_cons,
    List.cons_prefix_cons] at hgrows
  apply hdest
  rw [hgrows.1]
  exact joinPath_node h.proper (by simp [hnodes]) _

/-- The number of files the receiver waits for. -/
theorem expectedFiles_eq : (offerOf o entries).expectedFiles = max (fileNodes o.filePath.nodes).length 1 := by
  have hcount : ∀ ns id, (((numbered x id ns).map (·.manifestEntry)).filter fun e => e.entryType == .file).length =
      (fileNodes ns).length := by
    intro ns
    induction ns with
    | nil => intro id; rfl
    | cons n ns ih =>
      intro id
      cases hc : n.content with
      | none => simpa [numbered, entryOf, LocalSendEntry.manifestEntry, hc, fileNodes] using ih (id + 1)
      | some data => simpa [numbered, entryOf, LocalSendEntry.manifestEntry, hc, fileNodes] using ih (id + 1)
  rw [PendingOffer.expectedFiles, offerOf]
  dsimp only
  rw [scanSendPath_eq h.scanned, hcount]

/-- The file the transfer is at is the last one. -/
theorem last_iff (hnodes : o.filePath.nodes = before ++ n :: after) (hfile : n.content ≠ none) :
    (fileNodes before).length + 1 < (offerOf o entries).expectedFiles ↔ fileNodes after ≠ [] := by
  have hlen : (fileNodes o.filePath.nodes).length = (fileNodes before).length + ((fileNodes after).length + 1) := by
    rw [hnodes, fileNodes, List.filter_append, List.length_append]
    exact congrArg _ (congrArg List.length (fileNodes_cons_file hfile))
  rw [h.expectedFiles_eq, hlen, ← List.length_pos_iff]
  omega

end MobileOffered

/-! ## One file after the other -/

section

variable (x : Ext) (o : SendTask) (cfg : MobileConfig) (fs : Fs) (entries : List LocalSendEntry)

/-- The files of the nodes before are in their places, and both sides are at
the top of their loops. -/
structure Midway (before after : List TreeNode) (net : Net Frame MobileSend MobileSession) (c : Nat) (d : Fs)
    (m draws : Nat) : Prop where
  between : Between net (filesOf (numbered x (1 + before.length) after)) c
  right : net.right = takingFiles o entries d draws (fileNodes before).length
    ((filesOf (numbered x 1 before)).map (·.storedAt cfg.receiveDir)) (quiet m)
  disk : Received o cfg fs before d

end

namespace Midway

variable {x : Ext} {o : SendTask} {cfg : MobileConfig} {fs : Fs} {entries : List LocalSendEntry}
  {before after : List TreeNode} {net : Net Frame MobileSend MobileSession} {c m draws : Nat} {d : Fs} {n : TreeNode}

theorem recv (hmid : Midway x o cfg fs entries before after net c d m draws) :
    mobileReceiver x cfg net.right = .recv (mobileSessionStep x cfg net.right) (mobileSessionLost net.right) := by
  rw [hmid.right]
  rfl

theorem file (hmid : Midway x o cfg fs entries before (n :: after) net c d m draws) (hfile : n.content ≠ none) :
    Between net (entryOf x (1 + before.length) n :: filesOf (numbered x (1 + before.length + 1) after)) c := by
  rw [← filesOf_cons_file hfile]
  exact hmid.between

/-- A directory needs nothing more. -/
theorem dir (hmid : Midway x o cfg fs entries before (n :: after) net c d m draws) (hc : n.content = none) :
    Midway x o cfg fs entries (before ++ [n]) after net c d m draws where
  between := by
    have hb := hmid.between
    rwa [filesOf_cons_dir hc, Nat.add_assoc, ← List.length_singleton (a := n), ← List.length_append] at hb
  right := by
    have hfiles : filesOf (numbered x 1 (before ++ [n])) = filesOf (numbered x 1 before) := by
      simp [numbered_append, filesOf, numbered, entryOf, hc]
    rw [hfiles, fileNodes_append_dir hc]
    exact hmid.right
  disk := ⟨by rw [fileNodes_append_dir hc]; exact hmid.disk.layout, hmid.disk.root⟩

/-- Metadata the encoder does not take. -/
theorem not_ends_of_encode (hmid : Midway x o cfg fs entries before (n :: after) net c d m draws)
    (hfile : n.content ≠ none) {e : CodecError}
    (he : encodeControl x (o.metadataMessage (entryOf x (1 + before.length) n)) = .error e) :
    ¬ Ends (doSendFile x o) (mobileReceiver x cfg) (MobileDelivered o cfg entries) net := by
  have hb := hmid.file hfile
  have hr := Reaches.left_tau (p := doSendFile x o) (q := mobileReceiver x cfg) (n := net)
    (k := { pc := .returned (.error .io), nextMessageId := c })
    (by rw [hb.left]; simp [doSendFile, sendingFiles, MobileSend.sendControl, he])
  rw [hr.ends_iff]
  exact not_ends_of_hang hb.sent hb.unread hmid.recv (.inr ⟨_, rfl⟩)

/-- A receiver that answers the metadata and gives up. -/
theorem not_ends_of_gaveUp (hmid : Midway x o cfg fs entries before (n :: after) net c d m draws)
    (hfile : n.content ≠ none) {id fileId streamId : Nat} {r : MobileSession}
    (he : encodeControl x (o.metadataMessage (entryOf x (1 + before.length) n)) = .ok ())
    (hreply : mobileReceiver x cfg (mobileSessionStep x cfg net.right
      (controlFrame c (o.metadataMessage (entryOf x (1 + before.length) n)))) =
        .send (controlFrame id (.fileMetadataAck o.transferId fileId streamId true)) r)
    (hr : GaveUp r) : ¬ Ends (doSendFile x o) (mobileReceiver x cfg) (MobileDelivered o cfg entries) net := by
  obtain ⟨net', hr', hright, hstep⟩ := (hmid.file hfile).metadata he hmid.recv hreply
  rw [hr'.ends_iff]
  exact not_ends_of_halt (fun _ hd => hd.success) (hright ▸ hr.halts) hstep.silent

end Midway

namespace MobileOffered

variable {x : Ext} {o : SendTask} {cfg : MobileConfig} {fs : Fs} {name : String} {entries : List LocalSendEntry}
  (h : MobileOffered x o cfg fs name entries) {before after : List TreeNode} {d : Fs} {n : TreeNode} {data : Bytes}
  {net : Net Frame MobileSend MobileSession} {c m draws : Nat}
include h


section

variable (hn : n ∈ o.filePath.nodes) (hc : n.content = some data)
  (hmid : Midway x o cfg fs entries before (n :: after) net c d m draws)
include hn hc hmid

/-- A path the sanitiser does not take, no room for the temporary name, or a file
above the destination. -/
theorem not_ends_of_path
    (hbad : (∃ e, sanitizePath (joinSlash n.path) = .error e) ∨
      (∃ k, Limits.fits (tmpPathOf o cfg k n) = false) ∨
      ∃ q, q <+: (cfg.receiveDir ++ n.path).dropLast ∧ fs.isFile q = true) :
    ¬ Ends (doSendFile x o) (mobileReceiver x cfg) (MobileDelivered o cfg entries) net := by
  have hfile : n.content ≠ none := by simp [hc]
  cases he : encodeControl x (o.metadataMessage (entryOf x (1 + before.length) n)) with
  | error e => exact hmid.not_ends_of_encode hfile he
  | ok u =>
    cases hs : sanitizePath (joinSlash n.path) with
    | error e =>
      obtain ⟨r, hreply, hr⟩ := metadata_refused h.compact hmid.right (1 + before.length) c hs
      exact hmid.not_ends_of_gaveUp hfile he hreply hr
    | ok sanitized =>
      rcases hbad.resolve_left (by simp [hs]) with ⟨k, hlong⟩ | ⟨q, hq, hq'⟩
      · have hfits : Limits.fits (tmpPathOf o cfg draws n) = false := by
          by_contra hfits
          rw [Bool.not_eq_false] at hfits
          rw [tmpPathOf, fits_tmpName_congr hfits (cfg.rand k)] at hlong
          cases hlong
        obtain ⟨r, hreply, hr⟩ := metadata_cramped h.compact h.proper hn hmid.disk.root hmid.right
          (1 + before.length) c (sanitizePath_node h.proper hn hs) hfits
        exact hmid.not_ends_of_gaveUp hfile he hreply hr
      · have hblock : d.isFile q = true := by
          rw [Fs.isFile, hmid.disk.layout.kept]
          · exact hq'
          · intro hnone
            simp [Fs.isFile, hnone] at hq'
        obtain ⟨r, hreply, hr⟩ := metadata_blocked h.compact h.proper hn hmid.disk.layout.sound hmid.disk.root hmid.right
          (1 + before.length) c (sanitizePath_node h.proper hn hs) hq hblock
        exact hmid.not_ends_of_gaveUp hfile he hreply hr

variable {d' : Fs} (hd' : Received o cfg fs before d')
  (hmade : d.createDirAll (cfg.receiveDir ++ n.path).dropLast = some d')
  (hparent : d' (cfg.receiveDir ++ n.path).dropLast = some .dir)
  (hpath : sanitizePath (joinSlash n.path) = .ok (joinSlash n.path))
  (hfits : Limits.fits (tmpPathOf o cfg draws n) = true)
include hd' hparent hmade hpath hfits

/-- The chunks of a file with bytes. -/
theorem chunks_sent (hne : data ≠ []) :
    ∃ net' c', Reaches (doSendFile x o) (mobileReceiver x cfg) net net' ∧
      Between net' (filesOf (numbered x (1 + before.length + 1) after)) c' ∧
      (h.fileAt hd' hn hc hparent draws).Done cfg net'.right := by
  have hreply := h.metadata_opened hd' hn hc hparent hmade hmid.disk.root hpath hfits hmid.right (1 + before.length) c
  have hdata : (entryOf x (1 + before.length) n).data = data := by simp [entryOf, hc]
  have hq : ChunkReceiver x (mobileReceiver x cfg) (entryOf x (1 + before.length) n).data
      (entryOf x (1 + before.length) n).fileId (h.fileAt hd' hn hc hparent draws).Waits
      ((h.fileAt hd' hn hc hparent draws).Done cfg) := by
    rw [hdata]
    exact (h.fileAt hd' hn hc hparent draws).chunkReceiver h.compact
  exact (hmid.file (by simp [hc])).file (encode_metadata_entry h.compact hpath) hmid.recv hreply hq ⟨_, rfl⟩ (hdata ▸ hne)

/-- An empty file leaves the receiver in its chunk loop. -/
theorem empty_passed (hempty : data = []) :
    ∃ net', Reaches (doSendFile x o) (mobileReceiver x cfg) net net' ∧
      Between net' (filesOf (numbered x (1 + before.length + 1) after)) (c + 1) ∧
      net'.right = (h.fileAt hd' hn hc hparent draws).waiting 0 (quiet (m + 1)) := by
  have hreply := h.metadata_opened hd' hn hc hparent hmade hmid.disk.root hpath hfits hmid.right (1 + before.length) c
  have hdata : (entryOf x (1 + before.length) n).data = [] := by simp [entryOf, hc, hempty]
  obtain ⟨net₁, hr₁, hright, hstep⟩ :=
    (hmid.file (by simp [hc])).metadata (encode_metadata_entry h.compact hpath) hmid.recv hreply
  obtain ⟨net₂, hr₂, hl, hright₂, hR, hL, ha, hearly⟩ := hstep.drained (q := mobileReceiver x cfg)
    (doSendFile_chunkSender x o _ _) (by simp [hdata])
  exact ⟨net₂, hr₁.trans hr₂, ⟨hl, hR, hL, ha, hearly⟩, hright₂.trans hright⟩

/-- An empty file before another one. -/
theorem not_ends_of_empty (hempty : data = []) (hlast : fileNodes after ≠ []) :
    ¬ Ends (doSendFile x o) (mobileReceiver x cfg) (MobileDelivered o cfg entries) net := by
  obtain ⟨net₁, hr₁, hb₁, hright₁⟩ := h.empty_passed hn hc hmid hd' hmade hparent hpath hfits hempty
  obtain ⟨e, rest, hrest⟩ := List.exists_cons_of_ne_nil (filesOf_eq_nil_iff.not.mpr hlast)
  rw [hrest] at hb₁
  have hrecv : mobileReceiver x cfg net₁.right = .recv (mobileSessionStep x cfg net₁.right) (mobileSessionLost net₁.right) := by
    rw [hright₁]
    rfl
  rw [hr₁.ends_iff]
  cases he : encodeControl x (o.metadataMessage e) with
  | error err =>
    have hr := Reaches.left_tau (p := doSendFile x o) (q := mobileReceiver x cfg) (n := net₁)
      (k := { pc := .returned (.error .io), nextMessageId := c + 1 })
      (by rw [hb₁.left]; simp [doSendFile, sendingFiles, MobileSend.sendControl, he])
    rw [hr.ends_iff]
    exact not_ends_of_hang hb₁.sent hb₁.unread hrecv (.inr ⟨_, rfl⟩)
  | ok u =>
    have hsend : doSendFile x o net₁.left = .send (controlFrame (c + 1) (o.metadataMessage e))
        { pc := .awaitMetadataAck e rest, nextMessageId := c + 2 } := by
      rw [hb₁.left]
      exact mobileSend_act he
    have hr := (Reaches.left_send (q := mobileReceiver x cfg) hsend).trans
      (.right_only (controlFrame (c + 1) (o.metadataMessage e)) hrecv (by simp [hb₁.sent]))
    have hpass : mobileSessionStep x cfg net₁.right (controlFrame (c + 1) (o.metadataMessage e)) = net₁.right := by
      rw [hright₁]
      rfl
    rw [hr.ends_iff, hpass]
    exact not_ends_of_hang rfl hb₁.unread hrecv (.inl ⟨_, _, rfl⟩)

/-- An empty file at the end, up to the end of its chunk loop. -/
theorem empty_last (hnodes : o.filePath.nodes = before ++ n :: after) (hempty : data = []) (hlast : fileNodes after = []) :
    let i := h.fileAt hd' hn hc hparent draws
    ∃ net', Reaches (doSendFile x o) (mobileReceiver x cfg) net net' ∧
      net'.left = { pc := .awaitAck, nextMessageId := c + 2 } ∧ net'.toLeft = [] ∧ (∀ f ∈ net'.gotLeft, ¬ IsSuccess f) ∧
      net'.right = if i.Placed cfg then i.finished cfg (wrote (m + 1) (.transferAck o.transferId .success none))
        else i.dropped (quiet (m + 1)) := by
  intro i
  obtain ⟨net₁, hr₁, hb₁, hright₁⟩ := h.empty_passed hn hc hmid hd' hmade hparent hpath hfits hempty
  rw [filesOf_eq_nil_iff.mpr hlast] at hb₁
  have hrecv : mobileReceiver x cfg net₁.right = .recv (mobileSessionStep x cfg net₁.right) (mobileSessionLost net₁.right) := by
    rw [hright₁]
    rfl
  have hsend : doSendFile x o net₁.left = .send (controlFrame (c + 1) (.transferComplete o.transferId))
      { pc := .awaitAck, nextMessageId := c + 2 } := by
    rw [hb₁.left]
    exact mobileSend_act (encode_small h.compact (by simp [ControlMessage.volume]) (by simp))
  have hr := (Reaches.left_send (q := mobileReceiver x cfg) hsend).trans
    (.right_only (controlFrame (c + 1) (.transferComplete o.transferId)) hrecv (by simp [hb₁.sent]))
  have hnext := (h.last_iff hnodes (by simp [hc])).not.mpr (by simp [hlast])
  have hdone : mobileSessionStep x cfg net₁.right (controlFrame (c + 1) (.transferComplete o.transferId)) =
      if i.Placed cfg then i.finished cfg (wrote (m + 1) (.transferAck o.transferId .success none))
        else i.dropped (quiet (m + 1)) := by
    have hfinish := i.finish_eq cfg h.compact (show (quiet (m + 1)).writesLeft = none from rfl)
      (.chunks i.a ⟨0, i.data.take 0⟩)
    have hzero : i.data = [] := hempty
    rw [if_neg (show ¬ i.receivedFiles + 1 < i.offer.expectedFiles from hnext)] at hfinish
    rw [hright₁]
    simp only [hzero, List.length_nil] at hfinish
    refine Eq.trans ?_ hfinish
    rfl
  exact ⟨_, hr₁.trans hr, rfl, hb₁.unread, hb₁.early, hdone⟩

/-- A file whose place is taken does not come to be there. -/
theorem not_ends_of_taken (hnodes : o.filePath.nodes = before ++ n :: after)
    (htaken : fs (cfg.receiveDir ++ n.path) ≠ none) :
    ¬ Ends (doSendFile x o) (mobileReceiver x cfg) (MobileDelivered o cfg entries) net := by
  have hfile : n.content ≠ none := by simp [hc]
  have hdest : ((h.fileAt hd' hn hc hparent draws).file cfg).dest ≠ cfg.receiveDir ++ n.path := by
    have hd := h.dest_taken hd' hn hc hparent (1 + before.length) draws (fileNodes before).length
      ((filesOf (numbered x 1 before)).map (·.storedAt cfg.receiveDir)) htaken
    simp only [MobileIncoming.file, fileAt]
    exact hd
  by_cases hempty : data = []
  · by_cases hlast : fileNodes after = []
    · obtain ⟨net', hr, _, hL, hearly, hright⟩ := h.empty_last hn hc hmid hd' hmade hparent hpath hfits hnodes hempty hlast
      rw [hr.ends_iff]
      split at hright
      · exact h.not_ends_of_misplaced hnodes hfile (by rw [hright]; rfl) hdest
      · refine not_ends_of_halt (fun _ hd => hd.success) (hright ▸ (MobileIncoming.dropped_gaveUp _ _).halts) ?_
        rwa [hL, List.append_nil]
    · exact h.not_ends_of_empty hn hc hmid hd' hmade hparent hpath hfits hempty hlast
  · obtain ⟨net', c', hr, hb, id, hright⟩ := h.chunks_sent hn hc hmid hd' hmade hparent hpath hfits hempty
    rw [hr.ends_iff]
    split at hright
    · split at hright
      · exact h.not_ends_of_misplaced hnodes hfile (by rw [hright]; rfl) hdest
      · exact h.not_ends_of_misplaced hnodes hfile (by rw [hright]; rfl) hdest
    · refine not_ends_of_halt (fun _ hd => hd.success) (hright ▸ (MobileIncoming.dropped_gaveUp _ _).halts) ?_
      rw [hb.unread, List.append_nil]
      exact hb.early

section

variable (hnodes : o.filePath.nodes = before ++ n :: after) (hfree : fs (cfg.receiveDir ++ n.path) = none)
include hnodes hfree

omit hmid hmade hpath hfits in
theorem file_eq : (h.fileAt hd' hn hc hparent draws).file cfg =
    (entryOf x (1 + before.length) n).storedAt cfg.receiveDir := by
  have hdest := h.dest_free hd' hn hc hparent (1 + before.length) draws (fileNodes before).length
    ((filesOf (numbered x 1 before)).map (·.storedAt cfg.receiveDir)) (not_mem_before h.proper hnodes) hfree
  simp only [MobileIncoming.file, fileAt, hdest]
  simp [LocalSendEntry.storedAt, entryOf, hc, incoming, joinPath_node h.proper hn]

omit hmid hmade hpath hfits in
/-- After the last file everything is in its place. -/
theorem all_there (hlast : fileNodes after = []) {node : TreeNode} (hnode : node ∈ o.filePath.nodes) {content : Bytes}
    (hcontent : node.content = some content) :
    (h.fileAt hd' hn hc hparent draws).placed cfg (cfg.receiveDir ++ node.path) = some (.file content) := by
  have hnext := h.received_next hd' hn hc hparent (1 + before.length) draws (fileNodes before).length
    ((filesOf (numbered x 1 before)).map (·.storedAt cfg.receiveDir)) (not_mem_before h.proper hnodes) hfree
  have hmem : node ∈ fileNodes (before ++ [n]) := by
    have hall : node ∈ fileNodes o.filePath.nodes := mem_fileNodes.mpr ⟨hnode, by simp [hcontent]⟩
    rw [hnodes, show before ++ n :: after = (before ++ [n]) ++ after by simp, fileNodes, List.filter_append] at hall
    rcases List.mem_append.mp hall with hall | hall
    · exact hall
    · rw [show List.filter (fun n => n.content.isSome) after = [] from hlast] at hall
      cases hall
  obtain ⟨_, content', hc', hthere⟩ := hnext.layout.files hmem
  rw [hcontent, Option.some.injEq] at hc'
  rw [hc']
  exact hthere

omit hmid hmade hpath hfits in
theorem all_stored (hlast : fileNodes after = []) :
    (filesOf (numbered x 1 before)).map (·.storedAt cfg.receiveDir) ++ [(h.fileAt hd' hn hc hparent draws).file cfg] =
      (filesOf entries).map (·.storedAt cfg.receiveDir) := by
  rw [h.files_around hnodes (by simp [hc]), filesOf_eq_nil_iff.mpr hlast, h.file_eq hn hc hd' hparent hnodes hfree]
  simp

/-- The last file. -/
theorem ends_of_last (hlast : fileNodes after = []) :
    Ends (doSendFile x o) (mobileReceiver x cfg) (MobileDelivered o cfg entries) net := by
  have hplaced : (h.fileAt hd' hn hc hparent draws).Placed cfg :=
    h.placed_free hd' hn hc hparent _ _ _ _ (not_mem_before h.proper hnodes) hfree hfits
  by_cases hempty : data = []
  · obtain ⟨net', hr, hleft, hL, _, hright⟩ := h.empty_last hn hc hmid hd' hmade hparent hpath hfits hnodes hempty hlast
    rw [if_pos hplaced] at hright
    rw [hr.ends_iff]
    exact acked_ends hleft hL hright rfl rfl (h.all_stored hn hc hd' hparent hnodes hfree hlast)
      (fun node hnode content hcontent => h.all_there hn hc hd' hparent hnodes hfree hlast hnode hcontent)
  · obtain ⟨net', c', hr, hb, id, hright⟩ := h.chunks_sent hn hc hmid hd' hmade hparent hpath hfits hempty
    rw [filesOf_eq_nil_iff.mpr hlast] at hb
    have hsend : doSendFile x o net'.left = .send (controlFrame c' (.transferComplete o.transferId))
        { pc := .awaitAck, nextMessageId := c' + 1 } := by
      rw [hb.left]
      exact mobileSend_act (encode_small h.compact (by simp [ControlMessage.volume]) (by simp))
    have hnext := (h.last_iff hnodes (by simp [hc])).not.mpr (by simp [hlast])
    rw [if_pos hplaced, if_neg (show ¬ (h.fileAt hd' hn hc hparent draws).receivedFiles + 1 <
      (h.fileAt hd' hn hc hparent draws).offer.expectedFiles from hnext)] at hright
    rw [(hr.trans (.left_send hsend)).ends_iff]
    exact acked_ends rfl hb.unread hright rfl rfl (h.all_stored hn hc hd' hparent hnodes hfree hlast)
      (fun node hnode content hcontent => h.all_there hn hc hd' hparent hnodes hfree hlast hnode hcontent)

/-- A file with bytes before another one. -/
theorem midway_next (hne : data ≠ []) (hlast : fileNodes after ≠ []) :
    ∃ net' c' d₁ m', Reaches (doSendFile x o) (mobileReceiver x cfg) net net' ∧
      Midway x o cfg fs entries (before ++ [n]) after net' c' d₁ m' (draws + 1) := by
  have hfile : n.content ≠ none := by simp [hc]
  have hnew := not_mem_before h.proper hnodes
  have hplaced : (h.fileAt hd' hn hc hparent draws).Placed cfg :=
    h.placed_free hd' hn hc hparent _ _ _ _ hnew hfree hfits
  obtain ⟨net', c', hr, hb, id, hright⟩ := h.chunks_sent hn hc hmid hd' hmade hparent hpath hfits hne
  rw [if_pos hplaced, if_pos (show (h.fileAt hd' hn hc hparent draws).receivedFiles + 1 <
    (h.fileAt hd' hn hc hparent draws).offer.expectedFiles from (h.last_iff hnodes hfile).mpr hlast)] at hright
  refine ⟨net', c', (h.fileAt hd' hn hc hparent draws).placed cfg, id, hr, ⟨?_, ?_, ?_⟩⟩
  · rwa [List.length_append, List.length_singleton, ← Nat.add_assoc]
  · rw [hright, MobileIncoming.after, h.file_eq hn hc hd' hparent hnodes hfree, fileNodes_append_file hfile,
      numbered_append]
    simp [takingFiles, fileAt, incoming, filesOf, numbered, entryOf, hc]
  · exact h.received_next hd' hn hc hparent _ draws _ _ hnew hfree

end

end

/-- What keeps a file from its place. -/
theorem unsuitable (hn : n ∈ o.filePath.nodes) (hbad : ¬ Suitable o cfg fs n) :
    ((∃ e, sanitizePath (joinSlash n.path) = .error e) ∨
      (∃ k, Limits.fits (tmpPathOf o cfg k n) = false) ∨
      ∃ q, q <+: (cfg.receiveDir ++ n.path).dropLast ∧ fs.isFile q = true) ∨
    (sanitizePath (joinSlash n.path) = .ok (joinSlash n.path) ∧
      (∀ q, q <+: (cfg.receiveDir ++ n.path).dropLast → fs.isFile q = false) ∧
      (∀ k, Limits.fits (tmpPathOf o cfg k n) = true) ∧ fs (cfg.receiveDir ++ n.path) ≠ none) := by
  cases hs : sanitizePath (joinSlash n.path) with
  | error e => exact .inl (.inl ⟨e, rfl⟩)
  | ok sanitized =>
    by_cases hlong : ∃ k, Limits.fits (tmpPathOf o cfg k n) = false
    · exact .inl (.inr (.inl hlong))
    by_cases hblock : ∃ q, q <+: (cfg.receiveDir ++ n.path).dropLast ∧ fs.isFile q = true
    · exact .inl (.inr (.inr hblock))
    · have hfits : ∀ k, Limits.fits (tmpPathOf o cfg k n) = true := by simpa using hlong
      have hclear : ∀ q, q <+: (cfg.receiveDir ++ n.path).dropLast → fs.isFile q = false := by
        intro q hq
        by_contra hfile
        exact hblock ⟨q, hq, by simpa using hfile⟩
      refine .inr ⟨hs ▸ sanitizePath_node h.proper hn hs, hclear, hfits,
        fun hfree => hbad ⟨⟨_, hs⟩, hfree, fun q hq => ?_, hfits⟩⟩
      by_cases he : q = cfg.receiveDir ++ n.path
      · simp [Fs.isFile, he, hfree]
      · refine hclear q ?_
        rw [List.dropLast_append_of_ne_nil (nodes_ne_nil hn)]
        have hlast := List.dropLast_append_getLast (nodes_ne_nil hn)
        rw [← hlast, ← List.append_assoc] at hq he
        exact (List.prefix_concat_iff.mp hq).resolve_left he

/-- **The files.** From the top of both loops, with the files before in their
places, the transfer is delivered exactly when every file to come is
suitable and none but the last is empty. -/
theorem files_iff (hnodes : o.filePath.nodes = before ++ after)
    (hmid : Midway x o cfg fs entries before after net c d m draws) (hsome : fileNodes after ≠ []) :
    Ends (doSendFile x o) (mobileReceiver x cfg) (MobileDelivered o cfg entries) net ↔
      (∀ n ∈ fileNodes after, Suitable o cfg fs n) ∧ FullButLast after := by
  induction after generalizing before net c d m draws with
  | nil => exact absurd rfl hsome
  | cons n after ih =>
    have hn : n ∈ o.filePath.nodes := by simp [hnodes]
    have hnodes' : o.filePath.nodes = (before ++ [n]) ++ after := by simp [hnodes]
    cases hc : n.content with
    | none =>
      rw [fileNodes_cons_dir hc] at hsome
      rw [ih hnodes' (hmid.dir hc) hsome, FullButLast, FullButLast, fileNodes_cons_dir hc]
    | some data =>
      have hfile : n.content ≠ none := by simp [hc]
      have hfiles : fileNodes (n :: after) = n :: fileNodes after := fileNodes_cons_file hfile
      by_cases hgood : Suitable o cfg fs n
      · obtain ⟨⟨sanitized, hs⟩, hfree, hclear, hfits⟩ := id hgood
        have hpath := sanitizePath_node h.proper hn hs
        obtain ⟨d', hmade, hd', hparent⟩ := h.parent_made hmid.disk hn (not_mem_before h.proper hnodes)
          (fun q hq => hclear q (hq.trans (List.dropLast_prefix _))) (hfits draws)
        by_cases hlast : fileNodes after = []
        · refine iff_of_true (h.ends_of_last hn hc hmid hd' hmade hparent hpath (hfits draws) hnodes hfree hlast) ⟨?_, ?_⟩
          · rw [hfiles, hlast]
            simpa using hgood
          · simp [FullButLast, hfiles, hlast]
        · have hdrop : (fileNodes (n :: after)).dropLast = n :: (fileNodes after).dropLast := by
            rw [hfiles, List.dropLast_cons_of_ne_nil hlast]
          by_cases hempty : data = []
          · refine iff_of_false (h.not_ends_of_empty hn hc hmid hd' hmade hparent hpath (hfits draws) hempty hlast)
              fun hok => ?_
            exact hok.2 n (by simp [hdrop]) (hempty ▸ hc)
          · obtain ⟨net', c', d₁, m', hr, hmid'⟩ :=
              h.midway_next hn hc hmid hd' hmade hparent hpath (hfits draws) hnodes hfree hempty hlast
            rw [hr.ends_iff, ih hnodes' hmid' hlast, hfiles, FullButLast, FullButLast, hdrop]
            simp only [List.mem_cons, forall_eq_or_imp, hc, ne_eq, Option.some.injEq, hempty, not_false_eq_true,
              true_and]
            exact ⟨fun hok => ⟨⟨hgood, hok.1⟩, hok.2⟩, fun hok => ⟨hok.1.2, hok.2⟩⟩
      · refine iff_of_false ?_ fun hok => hgood (hok.1 n (by simp [hfiles]))
        rcases h.unsuitable hn hgood with hbad | ⟨hpath, hclear, hfits, htaken⟩
        · exact h.not_ends_of_path hn hc hmid hbad
        · obtain ⟨d', hmade, hd', hparent⟩ := h.parent_made hmid.disk hn (not_mem_before h.proper hnodes) hclear
            (hfits draws)
          exact h.not_ends_of_taken hn hc hmid hd' hmade hparent hpath (hfits draws) hnodes htaken

end MobileOffered

/-! ## A whole transfer -/

namespace MobileOffered

variable {x : Ext} {o : SendTask} {cfg : MobileConfig} {fs : Fs} {name : String} {entries : List LocalSendEntry}
  (h : MobileOffered x o cfg fs name entries)
include h

/-- The directories of some entries of the manifest, all of them accepted. -/
theorem precreate_accepted {ns : List TreeNode} (hns : ∀ n ∈ ns, n ∈ o.filePath.nodes) (id : Nat) {d : Fs}
    (hd : Received o cfg fs [] d)
    (hdirs : ∀ n ∈ ns, n.content = none → ∃ sanitized, sanitizePath (joinSlash n.path) = .ok sanitized) :
    ∃ d', precreateDirs x cfg ((numbered x id ns).map (·.manifestEntry)) d = (d', none) ∧ Received o cfg fs [] d' := by
  induction ns generalizing id d with
  | nil => exact ⟨d, rfl, hd⟩
  | cons n ns ih =>
    have hrest : ∀ n' ∈ ns, n' ∈ o.filePath.nodes := fun n' hn' => hns n' (by simp [hn'])
    have hdirs' : ∀ n' ∈ ns, n'.content = none → ∃ sanitized, sanitizePath (joinSlash n'.path) = .ok sanitized :=
      fun n' hn' => hdirs n' (by simp [hn'])
    have hn := hns n (by simp)
    cases hc : n.content with
    | some data =>
      obtain ⟨d', hd', hok⟩ := ih hrest (id + 1) hd hdirs'
      exact ⟨d', by simpa [numbered, entryOf, LocalSendEntry.manifestEntry, hc, precreateDirs] using hd', hok⟩
    | none =>
      obtain ⟨sanitized, hs⟩ := hdirs n (by simp) hc
      have hres : resolveSafePath d cfg.receiveDir (joinSlash n.path) = .ok (cfg.receiveDir ++ n.path) := by
        rw [resolveSafePath_ok (sanitizePath_node h.proper hn hs) (by simp [Fs.exists?, hd.root]),
          joinPath_node h.proper hn]
      have hroot : ((d.createDirAll (cfg.receiveDir ++ n.path)).getD d) cfg.receiveDir = some .dir := by
        cases hmade : d.createDirAll (cfg.receiveDir ++ n.path) with
        | none => exact hd.root
        | some d' => rw [Option.getD_some, (Fs.createDirAll_eq hmade).2, if_neg (by simp [hd.root]), hd.root]
      obtain ⟨d', hd', hok⟩ := ih hrest (id + 1) ⟨hd.layout.createDirAll (needed_dir hn hc), hroot⟩ hdirs'
      exact ⟨d', by
        simpa [numbered, entryOf, LocalSendEntry.manifestEntry, hc, precreateDirs, hres] using hd', hok⟩

omit h in
/-- A directory whose path is refused. -/
theorem precreate_refused (x : Ext) (cfg : MobileConfig) {ns : List TreeNode} (id : Nat) (d : Fs) {n : TreeNode} (hn : n ∈ ns) (hc : n.content = none)
    {e : PathError} (hs : sanitizePath (joinSlash n.path) = .error e) :
    ∃ d' err, precreateDirs x cfg ((numbered x id ns).map (·.manifestEntry)) d = (d', some err) := by
  induction ns generalizing id d with
  | nil => cases hn
  | cons n' ns ih =>
    rcases List.mem_cons.mp hn with rfl | hn
    · simp [numbered, entryOf, LocalSendEntry.manifestEntry, hc, precreateDirs, resolveSafePath, hs]
    · cases hc' : n'.content with
      | some data => simpa [numbered, entryOf, LocalSendEntry.manifestEntry, hc', precreateDirs] using ih (id + 1) d hn
      | none =>
        cases hres : resolveSafePath d cfg.receiveDir (joinSlash n'.path) with
        | error err => simp [numbered, entryOf, LocalSendEntry.manifestEntry, hc', precreateDirs, hres]
        | ok dir =>
          simpa [numbered, entryOf, LocalSendEntry.manifestEntry, hc', precreateDirs, hres] using ih (id + 1) _ hn

omit h in
theorem reading_recv (fs : Fs) (id : Nat) : mobileReceiver x cfg (.reading fs (quiet id)) =
    .recv (mobileSessionStep x cfg (.reading fs (quiet id))) (mobileSessionLost (.reading fs (quiet id))) := rfl

/-- The offer is taken. -/
theorem offer_read (id c : Nat) :
    mobileSessionStep x cfg (.reading fs (quiet id)) (controlFrame c (o.requestMessage name entries)) =
      .receiving (offerOf o entries) (startReceive x cfg (offerOf o entries) fs (quiet id)) := by
  simp [mobileSessionStep, controlFrame, SendTask.requestMessage, h.consent, offerOf]

/-- The offer is accepted, and the directories are made, or the transfer is
given up. -/
theorem offer_accepted (id c : Nat) :
    (∃ r, mobileReceiver x cfg (mobileSessionStep x cfg (.reading fs (quiet id))
        (controlFrame c (o.requestMessage name entries))) = .send (controlFrame id (.transferAccept o.transferId)) r ∧
      GaveUp r ∧ ¬ (RootMade cfg fs ∧ DirsAccepted o)) ∨
    ∃ d, mobileReceiver x cfg (mobileSessionStep x cfg (.reading fs (quiet id))
        (controlFrame c (o.requestMessage name entries))) =
          .send (controlFrame id (.transferAccept o.transferId)) (takingFiles o entries d 0 0 [] (quiet (id + 1))) ∧
      Received o cfg fs [] d ∧ RootMade cfg fs ∧ DirsAccepted o := by
  have hsend : (quiet id).sendControl x (.transferAccept o.transferId) = some (wrote id (.transferAccept o.transferId)) :=
    quiet_sendControl (encode_small h.compact (by simp [ControlMessage.volume]) (by simp))
  have hmanifest : (offerOf o entries).manifest = (numbered x 1 o.filePath.nodes).map (·.manifestEntry) := by
    rw [offerOf, scanSendPath_eq h.scanned]
  rw [h.offer_read]
  simp only [startReceive, MobileState.send, show (offerOf o entries).transferId = o.transferId from rfl, hsend]
  cases hmade : fs.createDirAll cfg.receiveDir with
  | none =>
    refine .inl ⟨_, rfl, ⟨_, _, _, id + 1, rfl, rfl, rfl⟩, fun hok => ?_⟩
    obtain ⟨fs₁, hsome⟩ := Fs.createDirAll_isSome (fun q hq => (hok.1 q hq).1) fun q hq => (hok.1 q hq).2
    rw [hmade] at hsome
    cases hsome
  | some fs₁ =>
    have hclear : RootMade cfg fs := fun q hq =>
      ⟨(Fs.createDirAll_eq hmade).1 q hq, Fs.createDirAll_fits hmade hq⟩
    have hlayout : Layout fs cfg.receiveDir o.filePath.nodes [] ((fs.createDirAll cfg.receiveDir).getD fs) :=
      (Layout.start h.disk).createDirAll (.inl List.prefix_rfl)
    rw [hmade, Option.getD_some] at hlayout
    simp only [hmanifest]
    by_cases hdirs : DirsAccepted o
    · obtain ⟨d, hd, hreceived⟩ :=
        h.precreate_accepted (fun _ hn => hn) 1 ⟨hlayout, (Fs.createDirAll_dir hmade).self⟩ hdirs
      simp only [hd]
      exact .inr ⟨d, rfl, hreceived, hclear, hdirs⟩
    · simp only [DirsAccepted, not_forall, not_exists] at hdirs
      obtain ⟨n, hn, hc, hs⟩ := hdirs
      obtain ⟨e, he⟩ : ∃ e, sanitizePath (joinSlash n.path) = .error e := by
        cases hcase : sanitizePath (joinSlash n.path) with
        | error e => exact ⟨e, rfl⟩
        | ok sanitized => exact absurd hcase (hs sanitized)
      obtain ⟨d, err, hd⟩ := precreate_refused x cfg 1 fs₁ hn hc he
      simp only [hd]
      refine .inl ⟨_, rfl, ⟨_, _, _, id + 1, rfl, rfl, rfl⟩, fun hok => ?_⟩
      obtain ⟨sanitized, hok⟩ := hok.2 n hn hc
      exact hs sanitized hok

/-- With no file at all, TRANSFER_COMPLETE is the first message. -/
theorem ends_of_no_files {net : Net Frame MobileSend MobileSession} {c m draws : Nat} {d : Fs}
    (hb : Between net (filesOf (numbered x 1 o.filePath.nodes)) c)
    (hright : net.right = takingFiles o entries d draws 0 [] (quiet m)) (hnone : fileNodes o.filePath.nodes = []) :
    Ends (doSendFile x o) (mobileReceiver x cfg) (MobileDelivered o cfg entries) net := by
  rw [filesOf_eq_nil_iff.mpr hnone] at hb
  have hsend : doSendFile x o net.left = .send (controlFrame c (.transferComplete o.transferId))
      { pc := .awaitAck, nextMessageId := c + 1 } := by
    rw [hb.left]
    exact mobileSend_act (encode_small h.compact (by simp [ControlMessage.volume]) (by simp))
  have hrecv : mobileReceiver x cfg net.right = .recv (mobileSessionStep x cfg net.right) (mobileSessionLost net.right) := by
    rw [hright]
    rfl
  have hack : mobileSessionStep x cfg net.right (controlFrame c (.transferComplete o.transferId)) =
      .receiving (offerOf o entries)
        { fs := d, conn := wrote m (.transferAck o.transferId .success none), draws, receivedFiles := 0
          phase := .returned (.ok ()), stored := [] } := by
    rw [hright]
    simp [mobileSessionStep, takingFiles, mobileStep, controlFrame, sendTransferAck, MobileState.send, offerOf,
      quiet_sendControl (MobileIncoming.encode_transferAck h.compact)]
  have hr := (Reaches.left_send (q := mobileReceiver x cfg) hsend).trans
    (.right_only (controlFrame c (.transferComplete o.transferId)) hrecv (by simp [hb.sent]))
  rw [hr.ends_iff]
  refine acked_ends rfl hb.unread hack rfl rfl ?_ ?_
  · rw [scanSendPath_eq h.scanned, filesOf_eq_nil_iff.mpr hnone]
    rfl
  · intro node hnode data hc
    have hmem : node ∈ fileNodes o.filePath.nodes := mem_fileNodes.mpr ⟨hnode, by simp [hc]⟩
    rw [hnone] at hmem
    cases hmem

/-- With the request taken and the directories accepted, the files decide. -/
theorem ends_iff_files (he : encodeControl x (o.requestMessage name entries) = .ok ())
    (hroot : RootMade cfg fs) (hdirs : DirsAccepted o) (c id : Nat) :
    Ends (doSendFile x o) (mobileReceiver x cfg) (MobileDelivered o cfg entries)
        { left := { pc := .scan, nextMessageId := c }, right := .reading fs (quiet id) } ↔
      (∀ n ∈ fileNodes o.filePath.nodes, Suitable o cfg fs n) ∧ FullButLast o.filePath.nodes := by
  rcases h.offer_accepted id c with ⟨r, _, _, hnot⟩ | ⟨d, hreply, hreceived, _, _⟩
  · exact absurd ⟨hroot, hdirs⟩ hnot
  · obtain ⟨net, hr, hright, hb⟩ := request_answered h.scanned he (reading_recv fs id) hreply
    rw [scanSendPath_eq h.scanned] at hb
    rw [hr.ends_iff]
    by_cases hnone : fileNodes o.filePath.nodes = []
    · refine iff_of_true (h.ends_of_no_files hb hright hnone) ⟨?_, ?_⟩
      · simp [hnone]
      · simp [FullButLast, hnone]
    · have hmid : Midway x o cfg fs entries [] o.filePath.nodes net (c + 1) d (id + 1) 0 := ⟨hb, hright, hreceived⟩
      exact h.files_iff (List.nil_append _).symm hmid hnone

end MobileOffered

def sampleMobile : MobileConfig :=
  { receiveDir := ["inbox"], now := 1000, accept := true
    rand := fun k => ⟨(List.range 8).map fun i => UInt8.ofNat (113 * k + 41 * i + 7), rfl⟩ }

/-- A temporary name starts with a dot. -/
theorem tmpName_ne {transferId : TransferId} {randBytes : RandBytes} {name other : String} (h : other.toList.head? ≠ some '.') :
    tmpName transferId randBytes name ≠ other := by
  rintro rfl
  simp [tmpName] at h

theorem sample_mobileOffered (data : Bytes) (hlen : data.length < 2 ^ 64) :
    MobileOffered sampleExt (sampleTask data) sampleMobile sampleFs "photos"
      (numbered sampleExt 1 (sampleTask data).filePath.nodes) where
  compact := sampleExt_compact
  scanned := by simp [scanSendPath, sampleTask, walkDirectory_eq, SendPath.nodes, sampleListing, Listing.nodes, numbered]
  proper := sampleTask_proper _
  short := by
    intro n hn content hc
    rw [sampleTask_nodes] at hn
    simp only [List.mem_cons, List.not_mem_nil, or_false] at hn
    rcases hn with rfl | rfl | rfl
    · cases hc
    · cases hc
      exact hlen
    · cases hc
      decide
  consent := rfl
  disk := sampleFs_sound
  drawn := by
    intro k n hn hc
    rw [sampleTask_nodes] at hn
    simp only [List.mem_cons, List.not_mem_nil, or_false] at hn
    have hname : ∀ {bytes name}, tmpName (sampleTask data).transferId bytes name ≠ "a.txt" ∧
        tmpName (sampleTask data).transferId bytes name ≠ "b" ∧ tmpName (sampleTask data).transferId bytes name ≠ "sub" :=
      ⟨tmpName_ne (by decide), tmpName_ne (by decide), tmpName_ne (by decide)⟩
    rcases hn with rfl | rfl | rfl
    · exact absurd rfl hc
    · simp [tmpPathOf, renameLast, sampleMobile, sampleFs, sampleTask_nodes, hname]
    · simp [tmpPathOf, renameLast, sampleMobile, sampleFs, sampleTask_nodes, hname]

theorem sample_deliverable :
    Deliverable sampleExt (sampleTask [0x61]) sampleMobile sampleFs "photos"
      (numbered sampleExt 1 (sampleTask [0x61]).filePath.nodes) where
  encoded := by rfl
  root := fun q hq => by simp [Fs.isFile, sampleFs_grounded q hq]
  dirs := by
    intro n hn _
    exact sample_treeOffered.accepted n hn
  files := by
    intro n hn
    obtain ⟨hn, _⟩ := mem_fileNodes.mp hn
    refine ⟨sample_treeOffered.accepted n hn, sample_treeOffered.free (nodes_ne_nil hn),
      fun q hq => sample_treeOffered.not_isFile hq, fun k => ?_⟩
    have hfirst : Limits.fits (tmpPathOf (sampleTask [0x61]) sampleMobile 0 n) = true := by
      revert n
      decide +kernel
    exact fits_tmpName_congr hfirst (sampleMobile.rand k)
  full := by simp [FullButLast, sampleTask_nodes, fileNodes]

end Nxfr
