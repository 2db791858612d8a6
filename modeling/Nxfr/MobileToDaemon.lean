/-
The mobile library sending to a daemon: `do_send_file` against
`handle_incoming_transfer` with `receive_file`, for a tree of files with
bytes and an empty receive directory (`tree_delivers_iff`).

The daemon makes the directories of the manifest first. The files follow in
the order of the walk; after each of them the disk is a `Layout` of the files
so far, so that the place of the next one and of its `.part` file are free.
A file whose `.part` name is too long ends the transfer, and a directory whose
path is too long is left out.
-/
import Nxfr.DaemonPair
import Nxfr.MobileFacts
import Nxfr.PathLimits
import Nxfr.PathRules

namespace Nxfr

open Network Disk

/-! ## The offer -/

section

variable (x : Ext) (o : SendTask) (cfg : SessionConfig) (fs : Fs) (j : Journal) (name : String)
  (entries : List LocalSendEntry)

/-- A tree of files with bytes whose manifest the encoder takes, offered to a
daemon with an empty receive directory that takes it and knows nothing of
the transfer. No path of the tree is that of another file's `.part` file. -/
structure TreeOffered : Prop where
  compact : x.Compact
  scanned : scanSendPath x o.filePath = .ok (name, entries)
  proper : o.filePath.Proper
  short : ∀ n ∈ o.filePath.nodes, ∀ data, n.content = some data → data.length < 2 ^ 64
  nonempty : ∀ n ∈ o.filePath.nodes, n.content ≠ some []
  accepted : ∀ n ∈ o.filePath.nodes, ∃ sanitized, sanitizePath (joinSlash n.path) = .ok sanitized
  parts : ∀ f ∈ o.filePath.nodes, f.content ≠ none → ∀ n ∈ o.filePath.nodes, n ≠ f → n.path ≠ partPath f.path
  encoded : encodeControl x (o.requestMessage name entries) = .ok ()
  consent : cfg.declined = none
  disk : fs.Sound
  root : fs cfg.receiveDir = some .dir
  empty : ∀ q, cfg.receiveDir <+: q → q ≠ cfg.receiveDir → fs q = none
  fresh : j (hexEncode o.transferId.bytes) = none

/-- In the receive directory there is room for the path of every directory, and for
that of the `.part` file of every file. -/
structure Room : Prop where
  dirs : ∀ n ∈ o.filePath.nodes, n.content = none → Limits.fits (cfg.receiveDir ++ n.path) = true
  parts : ∀ n ∈ o.filePath.nodes, n.content ≠ none → Limits.fits (cfg.receiveDir ++ partPath n.path) = true

/-- The transfer the daemon takes part in. -/
def treeTransfer : Transfer :=
  { transferId := o.transferId, peerIdHex := cfg.peerIdHex, displayName := name
    manifest := entries.map (·.manifestEntry), receiveDir := cfg.receiveDir, now := cfg.now }

/-- `do_send_file` has reported success, and the daemon has every file and
every directory. -/
def TreeDelivered (n : Net Frame MobileSend Session) : Prop :=
  n.left.pc = .returned (.ok .complete) ∧
    (∃ f ∈ n.gotLeft, f.control = .ok (.transferAck o.transferId .success none)) ∧
    ∀ node ∈ o.filePath.nodes, n.right.fs (cfg.receiveDir ++ node.path) =
      some (match node.content with | some data => .file data | none => .dir)

end

theorem TreeDelivered.success {o : SendTask} {cfg : SessionConfig} {n : Net Frame MobileSend Session}
    (h : TreeDelivered o cfg n) : ∃ f ∈ n.gotLeft, IsSuccess f := by
  obtain ⟨-, ⟨f, hf, hc⟩, -⟩ := h
  exact ⟨f, hf, _, _, hc⟩

/-- What is not there and does not fit is not made. -/
theorem createDirAll_absent {d : Fs} {p q : Path} (hnone : d q = none) (hlong : Limits.fits q = false) :
    (d.createDirAll p).getD d q = none := by
  cases hmade : d.createDirAll p with
  | none => exact hnone
  | some made =>
    rw [Option.getD_some, (Fs.createDirAll_eq hmade).2, if_neg, hnone]
    intro hall
    rw [Fs.createDirAll_fits hmade hall.1 hall.2] at hlong
    cases hlong

theorem createDirs_absent {t : Transfer} {d : Fs} {q : Path} (hnone : d q = none) (hlong : Limits.fits q = false) :
    createDirs t d q = none := by
  unfold createDirs
  induction t.manifest generalizing d with
  | nil => exact hnone
  | cons e es ih =>
    rw [List.foldl_cons]
    apply ih
    cases e.entryType with
    | file => exact hnone
    | dir =>
      cases sanitizePath e.relativePath with
      | error err => exact hnone
      | ok sanitized => exact createDirAll_absent hnone hlong

namespace TreeOffered

variable {x : Ext} {o : SendTask} {cfg : SessionConfig} {fs : Fs} {j : Journal} {name : String}
  {entries : List LocalSendEntry} (h : TreeOffered x o cfg fs j name entries)
include h

theorem sane {n : TreeNode} (hn : n ∈ o.filePath.nodes) : sanitizePath (joinSlash n.path) = .ok (joinSlash n.path) := by
  obtain ⟨sanitized, hs⟩ := h.accepted n hn
  exact sanitizePath_node h.proper hn hs

/-- Nothing but directories is above a place of the tree. -/
theorem not_isFile {p q : Path} (hq : q <+: cfg.receiveDir ++ p) : fs.isFile q = false := by
  rcases List.prefix_or_prefix_of_prefix hq (List.prefix_append cfg.receiveDir p) with hroot | hbelow
  · simp [Fs.isFile, h.disk.grounded h.root q hroot]
  · by_cases he : q = cfg.receiveDir
    · simp [Fs.isFile, he, h.root]
    · simp [Fs.isFile, h.empty q hbelow he]

/-- Nothing is at a place of the tree. -/
theorem free {p : Path} (hne : p ≠ []) : fs (cfg.receiveDir ++ p) = none := by
  refine h.empty _ (List.prefix_append _ _) fun he => hne ?_
  simpa using he

/-! ## The directories -/

/-- The directories of some entries of the manifest. -/
theorem createDirs_from {ns : List TreeNode} (hns : ∀ n ∈ ns, n ∈ o.filePath.nodes) {d : Fs} (id : Nat)
    (hd : Layout fs cfg.receiveDir o.filePath.nodes [] d) :
    let t := { treeTransfer o cfg name entries with manifest := (numbered x id ns).map (·.manifestEntry) }
    Layout fs cfg.receiveDir o.filePath.nodes [] (createDirs t d) ∧
      (∀ q, d q = some .dir → createDirs t d q = some .dir) ∧
      ∀ n ∈ ns, n.content = none → Limits.fits (cfg.receiveDir ++ n.path) = true →
        createDirs t d (cfg.receiveDir ++ n.path) = some .dir := by
  induction ns generalizing d id with
  | nil => exact ⟨hd, fun _ h => h, by simp⟩
  | cons n ns ih =>
    have hn := hns n (by simp)
    have hrest : ∀ n' ∈ ns, n' ∈ o.filePath.nodes := fun n' hn' => hns n' (by simp [hn'])
    cases hc : n.content with
    | some data =>
      have hskip : createDirs { treeTransfer o cfg name entries with
            manifest := (numbered x id (n :: ns)).map (·.manifestEntry) } d =
          createDirs { treeTransfer o cfg name entries with
            manifest := (numbered x (id + 1) ns).map (·.manifestEntry) } d := by
        simp [createDirs, numbered, entryOf, LocalSendEntry.manifestEntry, hc]
      dsimp only
      rw [hskip]
      obtain ⟨h₁, h₂, h₃⟩ := ih hrest (id + 1) hd
      refine ⟨h₁, h₂, fun n' hn' hdir => ?_⟩
      rcases List.mem_cons.mp hn' with rfl | hn'
      · rw [hc] at hdir
        cases hdir
      · exact h₃ n' hn' hdir
    | none =>
      have hmake : createDirs { treeTransfer o cfg name entries with
            manifest := (numbered x id (n :: ns)).map (·.manifestEntry) } d =
          createDirs { treeTransfer o cfg name entries with
            manifest := (numbered x (id + 1) ns).map (·.manifestEntry) }
              ((d.createDirAll (cfg.receiveDir ++ n.path)).getD d) := by
        have hjoin : joinPath (treeTransfer o cfg name entries).receiveDir (joinSlash n.path) =
          cfg.receiveDir ++ n.path := joinPath_node h.proper hn _
        simp [createDirs, numbered, entryOf, LocalSendEntry.manifestEntry, hc, h.sane hn, hjoin]
      have hkept : ∀ q, d q = some .dir → ((d.createDirAll (cfg.receiveDir ++ n.path)).getD d) q = some .dir := by
        intro q hq
        cases hd₁ : d.createDirAll (cfg.receiveDir ++ n.path) with
        | none => exact hq
        | some d₁ =>
          rw [Option.getD_some, (Fs.createDirAll_eq hd₁).2, if_neg (by simp [hq])]
          exact hq
      dsimp only
      rw [hmake]
      obtain ⟨h₁, h₂, h₃⟩ := ih hrest (id + 1) (hd.createDirAll (needed_dir hn hc))
      refine ⟨h₁, fun q hq => h₂ q (hkept q hq), fun n' hn' hdir hfits => ?_⟩
      rcases List.mem_cons.mp hn' with rfl | hn'
      · obtain ⟨d₁, hd₁⟩ := Fs.createDirAll_isSome (d := d) (p := cfg.receiveDir ++ n'.path) (by
          intro q hq
          by_contra hfile
          have := hd.isFile_above (nodes_apart h.proper) hn (by simp) hq (by simpa using hfile)
          rw [h.not_isFile hq] at this
          cases this) fun q hq _ => fits_above hfits hq
        refine h₂ _ ?_
        rw [hd₁]
        exact (Fs.createDirAll_dir hd₁).self
      · exact h₃ n' hn' hdir hfits

theorem createDirs_layout :
    Layout fs cfg.receiveDir o.filePath.nodes [] (createDirs (treeTransfer o cfg name entries) fs) ∧
      ∀ n ∈ o.filePath.nodes, n.content = none → Limits.fits (cfg.receiveDir ++ n.path) = true →
        createDirs (treeTransfer o cfg name entries) fs (cfg.receiveDir ++ n.path) = some .dir := by
  have hdirs := h.createDirs_from (fun n (hn : n ∈ o.filePath.nodes) => hn) 1 (.start h.disk)
  rw [← scanSendPath_eq h.scanned] at hdirs
  exact ⟨hdirs.1, hdirs.2.2⟩

end TreeOffered

/-! ## The files -/

section

variable (o : SendTask) (cfg : SessionConfig) (fs : Fs)

/-- The disk with some of the files and the directories that fit. -/
structure Built (placed : List TreeNode) (d : Fs) : Prop where
  layout : Layout fs cfg.receiveDir o.filePath.nodes placed d
  dirs : ∀ n ∈ o.filePath.nodes, n.content = none → Limits.fits (cfg.receiveDir ++ n.path) = true →
    d (cfg.receiveDir ++ n.path) = some .dir
  absent : ∀ n ∈ o.filePath.nodes, n.content = none → Limits.fits (cfg.receiveDir ++ n.path) = false →
    d (cfg.receiveDir ++ n.path) = none

end

/-- The journal has no file from `id` on. -/
def NewFrom (id : Nat) (resume : ResumeState) : Prop := ∀ k, id ≤ k → resume.files.lookup k = none

theorem NewFrom.record {id fileId received : Nat} {resume : ResumeState} (h : NewFrom id resume) (hid : fileId < id) :
    NewFrom id (resume.record fileId received) := by
  intro k hk
  unfold ResumeState.record
  split
  · exact h k hk
  · dsimp only
    rw [AList.lookup_insert_ne (by omega)]
    exact h k hk

theorem NewFrom.begin {id : Nat} {resume : ResumeState} {part : Path} (h : NewFrom id resume) :
    NewFrom (id + 1) (resume.begin id part) := by
  intro k hk
  unfold ResumeState.begin
  split
  · exact h k (by omega)
  · dsimp only
    rw [AList.lookup_insert_ne (by omega)]
    exact h k (by omega)

theorem NewFrom.hasPartial {id : Nat} {resume : ResumeState} (h : NewFrom id resume) :
    resume.hasPartial id = false := by
  simp [ResumeState.hasPartial, ResumeState.received, h id (Nat.le_refl _)]

namespace TreeOffered

variable {x : Ext} {o : SendTask} {cfg : SessionConfig} {fs : Fs} {j : Journal} {name : String}
  {entries : List LocalSendEntry} (h : TreeOffered x o cfg fs j name entries) {placed : List TreeNode} {d : Fs}
  {n : TreeNode} {data : Bytes}
include h

/-- The directory a node is in is there, or it does not fit. -/
theorem parent_or (hb : Built o cfg fs placed d) (hn : n ∈ o.filePath.nodes) :
    d (cfg.receiveDir ++ n.path).dropLast = some .dir ∨
      Limits.fits (cfg.receiveDir ++ n.path).dropLast = false ∧ d (cfg.receiveDir ++ n.path).dropLast = none := by
  have hne := nodes_ne_nil hn
  rw [List.dropLast_append_of_ne_nil hne]
  rcases nodes_parent hn (List.dropLast_prefix n.path) (fun he => by
    have := congrArg List.length he
    have := List.length_pos_iff.mpr hne
    simp only [List.length_dropLast] at *
    omega) with he | hdir
  · rw [he, List.append_nil, hb.layout.kept (by simp [h.root]), h.root]
    exact .inl rfl
  · cases hfits : Limits.fits (cfg.receiveDir ++ n.path.dropLast) with
    | true => exact .inl (hb.dirs _ hdir rfl hfits)
    | false => exact .inr ⟨rfl, hb.absent _ hdir rfl hfits⟩

omit h in
theorem partPath_dropLast (hn : n ∈ o.filePath.nodes) :
    (cfg.receiveDir ++ partPath n.path).dropLast = (cfg.receiveDir ++ n.path).dropLast := by
  rw [partPath, ← renameLast_append (nodes_ne_nil hn), renameLast_dropLast]

/-- The directory a file is in that has room for its `.part` file. -/
theorem parent (hb : Built o cfg fs placed d) (hn : n ∈ o.filePath.nodes)
    (hfits : Limits.fits (cfg.receiveDir ++ partPath n.path) = true) :
    d (cfg.receiveDir ++ n.path).dropLast = some .dir := by
  rcases h.parent_or hb hn with hdir | ⟨hlong, -⟩
  · exact hdir
  · rw [← partPath_dropLast hn, fits_above hfits (List.dropLast_prefix _)] at hlong
    cases hlong

/-- Where a `.part` file goes there is nothing. -/
theorem part_free (hb : Built o cfg fs placed d) (hn : n ∈ o.filePath.nodes) (hc : n.content = some data) :
    d (cfg.receiveDir ++ partPath n.path) = none := by
  have hpart : partPath n.path ≠ [] := by
    have := List.length_pos_iff.mpr (nodes_ne_nil hn)
    rw [← List.length_pos_iff, partPath, renameLast_length]
    exact this
  have hother : ∀ n' ∈ o.filePath.nodes, n'.path ≠ partPath n.path := by
    intro n' hn'
    by_cases he : n' = n
    · rw [he]
      exact (renameLast_ne partName_ne (nodes_ne_nil hn)).symm
    · exact h.parts n hn (by simp [hc]) n' hn' he
  refine hb.layout.free (h.free hpart) ?_ ?_
  · rintro (hp | ⟨n', hn', hp, _⟩)
    · have := hp.length_le
      have := List.length_pos_iff.mpr hpart
      simp only [List.length_append] at *
      omega
    · rw [List.prefix_append_right_inj] at hp
      rcases nodes_parent hn' hp (hother n' hn').symm with he | hdir
      · exact hpart he
      · exact hother _ hdir rfl
  · intro n' hn' he
    exact hother n' (hb.layout.files hn').1 (List.append_cancel_left he).symm

/-- The place of the file, before it is there. -/
theorem place_free (hb : Built o cfg fs placed d) (hn : n ∈ o.filePath.nodes) (hc : n.content = some data)
    (hnew : n ∉ placed) : d (cfg.receiveDir ++ n.path) = none := by
  have hne := nodes_ne_nil hn
  exact hb.layout.place_free (nodes_apart h.proper) hn (by simp [hc]) hne hnew (h.free hne)

/-- The file on its way in. -/
def incoming (hb : Built o cfg fs placed d) (hn : n ∈ o.filePath.nodes) (hc : n.content = some data)
    (hparent : d (cfg.receiveDir ++ n.path).dropLast = some .dir) (id receivedFiles : Nat) (stored : List StoredFile) :
    Incoming where
  t := treeTransfer o cfg name entries
  fileId := id
  streamId := id
  relativePath := joinSlash n.path
  data := data
  fs := d
  receivedFiles := receivedFiles
  stored := stored
  short := h.short n hn data hc
  sane := h.sane hn
  root := show d cfg.receiveDir = some .dir from (hb.layout.kept (by simp [h.root])).trans h.root
  home := by
    have hjoin : joinPath (treeTransfer o cfg name entries).receiveDir (joinSlash n.path) = cfg.receiveDir ++ n.path :=
      joinPath_node h.proper hn _
    rw [hjoin]
    exact hb.layout.sound.grounded hparent

section

variable (hb : Built o cfg fs placed d) (hn : n ∈ o.filePath.nodes) (hc : n.content = some data)
  (hparent : d (cfg.receiveDir ++ n.path).dropLast = some .dir) (id receivedFiles : Nat) (stored : List StoredFile)

theorem incoming_finalPath : (h.incoming hb hn hc hparent id receivedFiles stored).finalPath = cfg.receiveDir ++ n.path :=
  joinPath_node h.proper hn _

theorem incoming_partPath :
    (h.incoming hb hn hc hparent id receivedFiles stored).partPath = cfg.receiveDir ++ partPath n.path := by
  rw [Incoming.partPath, h.incoming_finalPath, partPath, renameLast_append (nodes_ne_nil hn), partPath]

theorem incoming_disk_free (hnew : n ∉ placed) (m : Nat) :
    (h.incoming hb hn hc hparent id receivedFiles stored).disk m (cfg.receiveDir ++ n.path) = none := by
  have hne : cfg.receiveDir ++ n.path ≠ cfg.receiveDir ++ partPath n.path := by
    intro he
    exact renameLast_ne partName_ne (nodes_ne_nil hn) (List.append_cancel_left he).symm
  rw [Incoming.disk, h.incoming_partPath, set_other hne]
  exact h.place_free hb hn hc hnew

theorem incoming_dest (hnew : n ∉ placed) :
    (h.incoming hb hn hc hparent id receivedFiles stored).dest = cfg.receiveDir ++ n.path := by
  rw [Incoming.dest, h.incoming_finalPath, resolveCollision_free]
  exact h.incoming_disk_free hb hn hc hparent id receivedFiles stored hnew _

theorem incoming_placed (hnew : n ∉ placed) (hfits : Limits.fits (cfg.receiveDir ++ partPath n.path) = true) :
    (h.incoming hb hn hc hparent id receivedFiles stored).Placed := by
  rw [Incoming.Placed, h.incoming_dest hb hn hc hparent id receivedFiles stored hnew]
  rw [partPath, ← renameLast_append (nodes_ne_nil hn)] at hfits
  refine ⟨?_, fits_of_partPath hfits⟩
  rw [h.incoming_disk_free _ _ _ _ _ _ _ hnew]
  simp

/-- The disk after the file. -/
theorem built_next (hnew : n ∉ placed) (hfits : Limits.fits (cfg.receiveDir ++ partPath n.path) = true) :
    Built o cfg fs (placed ++ [n]) (h.incoming hb hn hc hparent id receivedFiles stored).placed := by
  have heq : (h.incoming hb hn hc hparent id receivedFiles stored).placed =
      d.set (cfg.receiveDir ++ n.path) (some (.file data)) := by
    rw [Incoming.placed, h.incoming_dest hb hn hc hparent id receivedFiles stored hnew, h.incoming_partPath,
      show (h.incoming hb hn hc hparent id receivedFiles stored).fs = d from rfl, set_eq_self (h.part_free hb hn hc)]
    rfl
  have hfree := h.place_free hb hn hc hnew
  rw [heq]
  refine ⟨hb.layout.place hn hc hparent hfree, fun n' hn' hdir hroom => ?_, fun n' hn' hdir hlong => ?_⟩
  · rw [set_other]
    · exact hb.dirs n' hn' hdir hroom
    · intro he
      rw [← he, hb.dirs n' hn' hdir hroom] at hfree
      cases hfree
  · rw [set_other]
    · exact hb.absent n' hn' hdir hlong
    · intro he
      rw [partPath, ← renameLast_append (nodes_ne_nil hn)] at hfits
      rw [he, fits_of_partPath hfits] at hlong
      cases hlong

end

/-- One file goes over. -/
theorem file_sent (hb : Built o cfg fs placed d) (hn : n ∈ o.filePath.nodes) (hc : n.content = some data)
    (hnew : n ∉ placed) (hfits : Limits.fits (cfg.receiveDir ++ partPath n.path) = true) {net : Net Frame MobileSend Session} {id c m receivedFiles : Nat} {stored : List StoredFile}
    {rest : List LocalSendEntry} {journal : Journal} {resume : ResumeState} (hresume : NewFrom id resume)
    (hbetween : Between net (entryOf x id n :: rest) c)
    (hright : net.right = negotiating (treeTransfer o cfg name entries)
      { fs := d, journal, resume, conn := quiet m } receivedFiles stored) :
    ∃ net' c' d' journal' resume' m' receivedFiles' stored', Reaches (doSendFile x o) (responder x cfg) net net' ∧
      Between net' rest c' ∧ Built o cfg fs (placed ++ [n]) d' ∧ NewFrom (id + 1) resume' ∧
      net'.right = negotiating (treeTransfer o cfg name entries)
        { fs := d', journal := journal', resume := resume', conn := quiet m' } receivedFiles' stored' := by
  have hparent := h.parent hb hn hfits
  let i := h.incoming hb hn hc hparent id receivedFiles stored
  have hmeta : o.metadataMessage (entryOf x id n) = i.metadata x o.transferId := by
    simp [SendTask.metadataMessage, entryOf, hc, Incoming.metadata, i, TreeOffered.incoming]
  have hopen := i.begin_fresh cfg journal m c o.transferId h.compact
    (by simp [isModified, i, TreeOffered.incoming, hresume.hasPartial]) hresume.hasPartial
  have hpart : i.fs.Takes i.partPath := by
    rw [h.incoming_partPath]
    refine ⟨?_, hfits⟩
    rw [show i.fs = d from rfl, h.part_free hb hn hc]
    simp
  dsimp only at hopen
  rw [if_pos hpart] at hopen
  have hreply : responder x cfg (sessionStep x cfg net.right (controlFrame c (o.metadataMessage (entryOf x id n)))) =
      .send (controlFrame m (.fileMetadataAck o.transferId id id true))
        (i.waiting x 0 (resume.begin id i.partPath) (journal.save (resume.begin id i.partPath)) (quiet (m + 1))) := by
    rw [hright, hmeta]
    refine (congrArg (responder x cfg) hopen).trans ?_
    exact responder_wrote rfl
  have hdata : (entryOf x id n).data = data := by simp [entryOf, hc]
  have hrecords : i.Records fun _ resume _ => NewFrom (id + 1) resume :=
    ⟨fun hk _ => hk.record (Nat.lt_succ_self id)⟩
  have hq : ChunkReceiver x (responder x cfg) (entryOf x id n).data (entryOf x id n).fileId
      (i.Waits x fun _ resume _ => NewFrom (id + 1) resume) (i.Done x fun _ resume _ => NewFrom (id + 1) resume) := by
    rw [hdata]
    exact i.chunkReceiver _ h.compact hrecords cfg
  have hrecv : responder x cfg net.right = .recv (sessionStep x cfg net.right) (sessionLost net.right) := by
    rw [hright]
    rfl
  obtain ⟨net', c', hr, hb', hdone⟩ := hbetween.file (encode_metadata_entry h.compact (h.sane hn)) hrecv hreply hq
    ⟨_, _, _, hresume.begin, rfl⟩ (by
      rw [hdata]
      intro he
      exact h.nonempty n hn (he ▸ hc))
  rw [Incoming.Done, if_pos (h.incoming_placed hb hn hc hparent id receivedFiles stored hnew hfits)] at hdone
  obtain ⟨resume', journal', m', hkeep, hright'⟩ := hdone
  exact ⟨net', c', i.placed, journal', resume', m', _, _, hr, hb',
    h.built_next hb hn hc hparent id receivedFiles stored hnew hfits, hkeep, hright'⟩

/-- A file without room for its `.part` file: its directory cannot be made, or the
`.part` file cannot be opened. -/
theorem metadata_cramped (hb : Built o cfg fs placed d) (hn : n ∈ o.filePath.nodes) (hc : n.content = some data)
    (hlong : Limits.fits (cfg.receiveDir ++ partPath n.path) = false) {s : Session} {id c m receivedFiles : Nat}
    {stored : List StoredFile} {journal : Journal} {resume : ResumeState} (hresume : NewFrom id resume)
    (hs : s = negotiating (treeTransfer o cfg name entries)
      { fs := d, journal, resume, conn := quiet m } receivedFiles stored) :
    ∃ fs' journal', responder x cfg (sessionStep x cfg s (controlFrame c (o.metadataMessage (entryOf x id n)))) =
      .send (controlFrame m (.fileMetadataAck o.transferId id id true))
        (.closed fs' journal' (quiet (m + 1)) (.error .io)) := by
  have hmod : isModified resume id (x.sha256 data) = false := by simp [isModified, hresume.hasPartial]
  rcases h.parent_or hb hn with hparent | ⟨hlong', hnone⟩
  · let i := h.incoming hb hn hc hparent id receivedFiles stored
    have hmeta : o.metadataMessage (entryOf x id n) = i.metadata x o.transferId := by
      simp [SendTask.metadataMessage, entryOf, hc, Incoming.metadata, i, TreeOffered.incoming]
    have hopen := i.begin_fresh cfg journal m c o.transferId h.compact hmod hresume.hasPartial
    have hpart : ¬ i.fs.Takes i.partPath := by
      intro htakes
      rw [h.incoming_partPath] at htakes
      rw [htakes.2] at hlong
      cases hlong
    dsimp only at hopen
    rw [if_neg hpart] at hopen
    refine ⟨d, journal.save (resume.begin id i.partPath), ?_⟩
    rw [hs, hmeta]
    exact (congrArg (responder x cfg) hopen).trans (responder_wrote rfl)
  · have hmake : d.createDirAll (cfg.receiveDir ++ n.path).dropLast = none := by
      cases hmade : d.createDirAll (cfg.receiveDir ++ n.path).dropLast with
      | none => rfl
      | some made =>
        rw [Fs.createDirAll_fits hmade List.prefix_rfl hnone] at hlong'
        cases hlong'
    have hroot : d cfg.receiveDir = some .dir := (hb.layout.kept (by simp [h.root])).trans h.root
    have hres : resolveSafePath d cfg.receiveDir (joinSlash n.path) = .ok (cfg.receiveDir ++ n.path) := by
      rw [resolveSafePath_ok (h.sane hn) (by simp [Fs.exists?, hroot]), joinPath_node h.proper hn]
    have hsend : (quiet m).sendControl x (.fileMetadataAck o.transferId id id true) =
        some (wrote m (.fileMetadataAck o.transferId id id true)) :=
      quiet_sendControl (encode_small h.compact (by simp [ControlMessage.volume]) (by simp))
    refine ⟨d, journal, ?_⟩
    have hstep : sessionStep x cfg s (controlFrame c (o.metadataMessage (entryOf x id n))) =
        .closed d journal (wrote m (.fileMetadataAck o.transferId id id true)) (.error .io) := by
      rw [hs]
      simp only [sessionStep, negotiating, transferStep, controlFrame, SendTask.metadataMessage, entryOf, hc,
        Option.map_some, Option.getD_some, onTransferMessage, onMetadata, h.sane hn, hmod, TransferState.send,
        treeTransfer, hsend, beginFile, hres, hmake, Bool.false_eq_true, if_false]
      rfl
    rw [hstep]
    exact responder_wrote rfl

/-- The files from some node on go over, one after the other. -/
theorem files_sent {before after : List TreeNode} (hnodes : o.filePath.nodes = before ++ after)
    (hroom : ∀ n ∈ after, n.content ≠ none → Limits.fits (cfg.receiveDir ++ partPath n.path) = true)
    (hb : Built o cfg fs (fileNodes before) d) {net : Net Frame MobileSend Session} {id c m receivedFiles : Nat}
    {stored : List StoredFile} {journal : Journal} {resume : ResumeState} (hresume : NewFrom id resume)
    (hbetween : Between net (filesOf (numbered x id after)) c)
    (hright : net.right = negotiating (treeTransfer o cfg name entries)
      { fs := d, journal, resume, conn := quiet m } receivedFiles stored) :
    ∃ net' c' d' journal' resume' m' receivedFiles' stored', Reaches (doSendFile x o) (responder x cfg) net net' ∧
      Between net' [] c' ∧ Built o cfg fs (fileNodes o.filePath.nodes) d' ∧
      net'.right = negotiating (treeTransfer o cfg name entries)
        { fs := d', journal := journal', resume := resume', conn := quiet m' } receivedFiles' stored' := by
  induction after generalizing before d net id c m receivedFiles stored journal resume with
  | nil =>
    rw [List.append_nil] at hnodes
    exact ⟨net, c, d, journal, resume, m, receivedFiles, stored, .refl, hbetween, hnodes ▸ hb, hright⟩
  | cons n after ih =>
    have hnodes' : o.filePath.nodes = (before ++ [n]) ++ after := by simp [hnodes]
    have hrest : ∀ n ∈ after, n.content ≠ none → Limits.fits (cfg.receiveDir ++ partPath n.path) = true :=
      fun n' hn' => hroom n' (by simp [hn'])
    cases hc : n.content with
    | none =>
      rw [filesOf_cons_dir hc] at hbetween
      exact ih hnodes' hrest ((fileNodes_append_dir hc).symm ▸ hb) (fun k hk => hresume k (by omega)) hbetween hright
    | some data =>
      have hfile : n.content ≠ none := by simp [hc]
      rw [filesOf_cons_file hfile] at hbetween
      have hn : n ∈ o.filePath.nodes := by simp [hnodes]
      have hnew : n ∉ fileNodes before := fun hmem => not_mem_before h.proper hnodes (mem_fileNodes.mp hmem).1
      obtain ⟨net₁, c₁, d₁, journal₁, resume₁, m₁, received₁, stored₁, hr₁, hbetween₁, hb₁, hresume₁, hright₁⟩ :=
        h.file_sent hb hn hc hnew (hroom n (by simp) hfile) hresume hbetween hright
      obtain ⟨net₂, c₂, d₂, journal₂, resume₂, m₂, received₂, stored₂, hr₂, h₂⟩ :=
        ih hnodes' hrest ((fileNodes_append_file hfile).symm ▸ hb₁) hresume₁ hbetween₁ hright₁
      exact ⟨net₂, c₂, d₂, journal₂, resume₂, m₂, received₂, stored₂, hr₁.trans hr₂, h₂⟩

/-- The first file that has no room ends the transfer. -/
theorem not_ends_of_cramped {before after : List TreeNode} (hnodes : o.filePath.nodes = before ++ after)
    (hlong : ∃ n ∈ after, n.content ≠ none ∧ Limits.fits (cfg.receiveDir ++ partPath n.path) = false)
    (hb : Built o cfg fs (fileNodes before) d) {net : Net Frame MobileSend Session} {id c m receivedFiles : Nat}
    {stored : List StoredFile} {journal : Journal} {resume : ResumeState} (hresume : NewFrom id resume)
    (hbetween : Between net (filesOf (numbered x id after)) c)
    (hright : net.right = negotiating (treeTransfer o cfg name entries)
      { fs := d, journal, resume, conn := quiet m } receivedFiles stored) :
    ¬ Ends (doSendFile x o) (responder x cfg) (TreeDelivered o cfg) net := by
  induction after generalizing before d net id c m receivedFiles stored journal resume with
  | nil =>
    obtain ⟨n, hn, -⟩ := hlong
    cases hn
  | cons n after ih =>
    have hnodes' : o.filePath.nodes = (before ++ [n]) ++ after := by simp [hnodes]
    cases hc : n.content with
    | none =>
      rw [filesOf_cons_dir hc] at hbetween
      have hlong' : ∃ n ∈ after, n.content ≠ none ∧ Limits.fits (cfg.receiveDir ++ partPath n.path) = false := by
        simpa [hc] using hlong
      exact ih hnodes' hlong' ((fileNodes_append_dir hc).symm ▸ hb) (fun k hk => hresume k (by omega)) hbetween hright
    | some data =>
      have hfile : n.content ≠ none := by simp [hc]
      rw [filesOf_cons_file hfile] at hbetween
      have hn : n ∈ o.filePath.nodes := by simp [hnodes]
      cases hfits : Limits.fits (cfg.receiveDir ++ partPath n.path) with
      | true =>
        have hlong' : ∃ n ∈ after, n.content ≠ none ∧ Limits.fits (cfg.receiveDir ++ partPath n.path) = false := by
          simpa [hc, hfits] using hlong
        have hnew : n ∉ fileNodes before := fun hmem => not_mem_before h.proper hnodes (mem_fileNodes.mp hmem).1
        obtain ⟨net₁, c₁, d₁, journal₁, resume₁, m₁, received₁, stored₁, hr₁, hbetween₁, hb₁, hresume₁, hright₁⟩ :=
          h.file_sent hb hn hc hnew hfits hresume hbetween hright
        rw [hr₁.ends_iff]
        exact ih hnodes' hlong' ((fileNodes_append_file hfile).symm ▸ hb₁) hresume₁ hbetween₁ hright₁
      | false =>
        have hrecv : responder x cfg net.right = .recv (sessionStep x cfg net.right) (sessionLost net.right) := by
          rw [hright]
          rfl
        obtain ⟨fs', journal', hreply⟩ := h.metadata_cramped hb hn hc hfits hresume hright (c := c)
        obtain ⟨net', hr', hclosed, hstep⟩ :=
          hbetween.metadata (encode_metadata_entry h.compact (h.sane hn)) hrecv hreply
        rw [hr'.ends_iff]
        have hhalts : responder x cfg net'.right = .halt true := by
          rw [hclosed]
          rfl
        exact not_ends_of_halt (fun _ hd => hd.success) hhalts hstep.silent

/-- The request is accepted, and the directories are made. -/
theorem accepted_net (c id : Nat) :
    ∃ net, Reaches (doSendFile x o) (responder x cfg)
        { left := { pc := .scan, nextMessageId := c }, right := .idle fs j (quiet id) } net ∧
      Between net (filesOf (numbered x 1 o.filePath.nodes)) (c + 1) ∧
      net.right = negotiating (treeTransfer o cfg name entries)
        { fs := createDirs (treeTransfer o cfg name entries) fs, journal := j
          resume := freshResume (treeTransfer o cfg name entries), conn := quiet (id + 1) } 0 [] := by
  have hreply : responder x cfg (sessionStep x cfg (.idle fs j (quiet id))
      (controlFrame c (o.requestMessage name entries))) =
      .send (controlFrame id (.transferAccept o.transferId))
        ((enterTransfer cfg fs j (wrote id (.transferAccept o.transferId)) o.transferId name
          (entries.map (·.manifestEntry))).withConn (quiet (id + 1))) := by
    refine (congrArg (responder x cfg) (sessionStep_request h.compact h.consent)).trans ?_
    exact responder_wrote rfl
  have hrecv : responder x cfg (.idle fs j (quiet id)) =
      .recv (sessionStep x cfg (.idle fs j (quiet id))) (sessionLost (.idle fs j (quiet id))) := rfl
  obtain ⟨net, hr, hright, hbetween⟩ := request_answered h.scanned h.encoded hrecv hreply
  refine ⟨net, hr, scanSendPath_eq h.scanned ▸ hbetween, hright.trans ?_⟩
  simp [enterTransfer, startTransfer, loadResume, h.fresh, Session.withConn, negotiating, treeTransfer]

/-- The disk with the directories. -/
theorem createDirs_built : Built o cfg fs [] (createDirs (treeTransfer o cfg name entries) fs) := by
  obtain ⟨hlayout, hdirs⟩ := h.createDirs_layout
  refine ⟨hlayout, hdirs, fun n hn hc hlong => ?_⟩
  exact createDirs_absent (h.free (nodes_ne_nil hn)) hlong

/-- A file without room for its `.part` file. -/
theorem not_delivered_cramped (c id : Nat)
    (hlong : ∃ n ∈ o.filePath.nodes, n.content ≠ none ∧ Limits.fits (cfg.receiveDir ++ partPath n.path) = false) :
    ¬ Ends (doSendFile x o) (responder x cfg) (TreeDelivered o cfg)
      { left := { pc := .scan, nextMessageId := c }, right := .idle fs j (quiet id) } := by
  obtain ⟨net₁, hr₁, hbetween₁, hright₁⟩ := h.accepted_net c id
  rw [hr₁.ends_iff]
  exact h.not_ends_of_cramped (List.nil_append _).symm hlong h.createDirs_built (fun k _ => rfl) hbetween₁ hright₁

/-- Where every file has room, the transfer comes to its end with the files and the
directories that fit. -/
theorem files_settle (c id : Nat)
    (hroom : ∀ n ∈ o.filePath.nodes, n.content ≠ none → Limits.fits (cfg.receiveDir ++ partPath n.path) = true) :
    ∃ n, Settles (doSendFile x o) (responder x cfg)
        { left := { pc := .scan, nextMessageId := c }, right := .idle fs j (quiet id) } n ∧
      n.left.pc = .returned (.ok .complete) ∧
      (∃ f ∈ n.gotLeft, f.control = .ok (.transferAck o.transferId .success none)) ∧
      Built o cfg fs (fileNodes o.filePath.nodes) n.right.fs := by
  obtain ⟨net₁, hr₁, hbetween₁, hright₁⟩ := h.accepted_net c id
  obtain ⟨net₂, c₂, d, journal, resume, m, received, stored, hr₂, hbetween₂, hb, hright₂⟩ :=
    h.files_sent (List.nil_append _).symm hroom h.createDirs_built (fun k _ => rfl) hbetween₁ hright₁
  have hcomplete : doSendFile x o net₂.left = .send (controlFrame c₂ (.transferComplete o.transferId))
      { pc := .awaitAck, nextMessageId := c₂ + 1 } := by
    rw [hbetween₂.left]
    exact mobileSend_act (encode_small h.compact (by simp [ControlMessage.volume]) (by simp))
  have hr₃ := responder_call cfg hcomplete hright₂ rfl (sessionStep_complete h.compact) rfl rfl hbetween₂.sent
    hbetween₂.unread
  have hsettles : Settles (doSendFile x o) (responder x cfg) _ _ := ⟨(hr₁.trans hr₂).trans hr₃, by
    rintro (_ | _) <;> rfl⟩
  exact ⟨_, hsettles, rfl, ⟨controlFrame m (.transferAck o.transferId .success none), by simp [treeTransfer], rfl⟩, hb⟩

end TreeOffered

theorem sampleFs_sound : sampleFs.Sound := by
  intro p q hpq hne hq
  have hq' : q = ["inbox"] := by
    simp only [sampleFs] at hq
    split at hq
    · rename_i h
      rcases h with rfl | rfl
      · exact absurd (List.prefix_nil.mp hpq) hne
      · rfl
    · exact absurd rfl hq
  subst hq'
  exact sampleFs_grounded p hpq

/-- A directory with a file, and another file beside it. -/
def sampleListing (data : Bytes) : Listing := .dir "sub" (.file "a.txt" data .nil) (.file "b" [0x61] .nil)

def sampleTask (data : Bytes) : SendTask := { transferId := sampleId, filePath := .dir "photos" (sampleListing data) }

theorem sampleTask_proper (data : Bytes) : (sampleTask data).filePath.Proper := by
  simp [sampleTask, SendPath.Proper, sampleListing, Listing.Proper, Listing.names, ProperName]

theorem sampleTask_nodes (data : Bytes) :
    (sampleTask data).filePath.nodes = [⟨["sub"], none⟩, ⟨["sub", "a.txt"], some data⟩, ⟨["b"], some [0x61]⟩] := rfl

theorem sample_treeOffered :
    TreeOffered sampleExt (sampleTask [0x61]) sampleConfig sampleFs (fun _ => none) "photos"
      (numbered sampleExt 1 (sampleTask [0x61]).filePath.nodes) where
  compact := sampleExt_compact
  scanned := by simp [scanSendPath, sampleTask, walkDirectory_eq, SendPath.nodes, sampleListing, Listing.nodes, numbered]
  proper := sampleTask_proper _
  short := by simp [sampleTask_nodes]
  nonempty := by simp [sampleTask_nodes]
  accepted := by
    rw [sampleTask_nodes]
    intro n hn
    simp only [List.mem_cons, List.not_mem_nil, or_false] at hn
    rcases hn with rfl | rfl | rfl
    · exact ⟨"sub", by rfl⟩
    · exact ⟨"sub/a.txt", by rfl⟩
    · exact ⟨"b", by rfl⟩
  parts := by rw [sampleTask_nodes]; decide
  encoded := by rfl
  consent := rfl
  disk := sampleFs_sound
  root := rfl
  empty := by
    intro q hq hne
    have hnil : q ≠ [] := by
      rintro rfl
      simp [sampleConfig] at hq
    simp [sampleFs, hnil, show q ≠ ["inbox"] from hne]
  fresh := rfl

/-- A name of so many letters. -/
def letters (n : Nat) : String := String.ofList (List.replicate n 'a')

theorem letters_toList (n : Nat) : (letters n).toList = List.replicate n 'a' := String.toList_ofList

theorem letters_size (n : Nat) : (letters n).utf8ByteSize = n := by
  rw [letters, utf8ByteSize_ascii, List.length_replicate]
  intro c hc
  rw [List.eq_of_mem_replicate hc]
  rfl

theorem letters_chars {n : Nat} {c : Char} (hc : c ∈ (letters n).toList) : c = 'a' := by
  rw [letters_toList] at hc
  exact List.eq_of_mem_replicate hc

theorem letters_proper {n : Nat} (hn : 1 < n) : ProperName (letters n) := by
  have hother : ∀ name : String, name.utf8ByteSize ≤ 1 → letters n ≠ name := by
    rintro name hname rfl
    rw [letters_size] at hname
    omega
  exact ⟨hother "" (by decide), hother "." (by decide), fun h => absurd (letters_chars h) (by decide)⟩

/-- The sanitiser takes such a name. -/
theorem letters_accepted {n : Nat} (hn : 4 < n) (hmax : n ≤ 255) : sanitizePath (letters n) = .ok (letters n) := by
  have hproper : ProperName (letters n) := letters_proper (by omega)
  have hsplit : splitSlash (letters n) = [letters n] := by
    have := splitSlash_joinSlash (List.cons_ne_nil (letters n) []) (by simpa using hproper.2.2)
    rwa [joinSlash_singleton] at this
  have hnamed : namedComponents (letters n) = [letters n] := by
    simp [namedComponents, hsplit, isNamed, hproper.1, hproper.2.1]
  have hreserved : isReserved (letters n) = false := by
    rw [Bool.eq_false_iff, ne_eq, isReserved_iff]
    intro h
    obtain ⟨name, hname, heq⟩ := h
    -- Every device name is shorter.
    have hbase : baseName (letters n) = (letters n).toList := by
      rw [baseName, List.takeWhile_eq_self_iff]
      intro c hc
      rw [letters_chars hc]
      decide
    have hlen := congrArg List.length heq
    rw [hbase, List.length_map, letters_toList, List.length_replicate] at hlen
    have hshort : ∀ name ∈ reservedNames, name.toList.length ≤ 4 := by decide +kernel
    have := hshort name hname
    omega
  have hcons : (letters n).toList = 'a' :: 'a' :: List.replicate (n - 2) 'a' := by
    rw [letters_toList, ← List.replicate_succ, ← List.replicate_succ]
    congr 1
    omega
  refine sanitizePath_ok_iff.mpr ⟨⟨?_, ?_, ?_, ?_, ?_, ?_⟩, ?_, ?_, ?_, ?_⟩
  · rw [hcons]
    exact List.cons_ne_nil _ _
  · exact fun h => absurd (letters_chars h) (by decide)
  · rw [hcons]
    simp
  · rw [hcons]
    rfl
  · exact fun h => absurd (letters_chars h) (by decide)
  · intro c hc
    rw [letters_chars hc]
    decide
  · intro c hc
    rw [hsplit, List.mem_singleton] at hc
    subst hc
    refine ⟨fun h => absurd (letters_chars (h ▸ (by decide : '.' ∈ "..".toList))) (by decide), ?_, hreserved⟩
    rwa [letters_size]
  · rw [hnamed]
    exact List.cons_ne_nil _ _
  · rw [hnamed, joinSlash_singleton, letters_size, maxRelativePath]
    omega
  · rw [hnamed, joinSlash_singleton]

/-- One file of one byte under a name of 251 bytes. -/
def longTask : SendTask := { transferId := sampleId, filePath := .file (letters 251) [0x61] }

theorem longTask_nodes : longTask.filePath.nodes = [⟨[letters 251], some [0x61]⟩] := rfl

theorem longTask_volume (name : String) :
    (longTask.requestMessage name (numbered sampleExt 1 [⟨[name], some [0x61]⟩])).volume = 256 + 2 * name.utf8ByteSize := by
  simp only [SendTask.requestMessage, numbered, ControlMessage.volume, entryOf, List.map_cons, List.map_nil,
    List.sum_cons, List.sum_nil, joinSlash_singleton, LocalSendEntry.manifestEntry]
  omega

theorem long_treeOffered :
    TreeOffered sampleExt longTask sampleConfig sampleFs (fun _ => none) (letters 251)
      (numbered sampleExt 1 longTask.filePath.nodes) where
  compact := sampleExt_compact
  scanned := by
    simp [scanSendPath, longTask, SendPath.nodes, numbered, entryOf, joinSlash_singleton]
  proper := letters_proper (by decide)
  short := by simp [longTask_nodes]
  nonempty := by simp [longTask_nodes]
  accepted := by
    intro n hn
    rw [longTask_nodes, List.mem_singleton] at hn
    rw [hn, joinSlash_singleton]
    exact ⟨letters 251, letters_accepted (by decide) (by decide)⟩
  parts := by simp [longTask_nodes]
  encoded := by
    refine encodeControl_ok sampleExt_compact ?_ fun he => by cases he; decide
    have hvolume := longTask_volume (letters 251)
    rw [letters_size] at hvolume
    rw [longTask_nodes, hvolume]
    omega
  consent := rfl
  disk := sampleFs_sound
  root := rfl
  empty := sample_treeOffered.empty
  fresh := rfl

end Nxfr
