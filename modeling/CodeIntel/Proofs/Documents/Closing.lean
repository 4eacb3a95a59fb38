import CodeIntel.Proofs.Client.Opening

/-!
# Closing documents by their paths

A document is listed under the real path that its file had when it was opened.
To close it, the real path is looked up again. So the document is closed,
whether the server can be told or not, as long as the path still leads to where
the file was, whatever has become of the text of the file. If the path leads
nowhere, nothing happens, and the document stays open.
-/

namespace CodeIntel

namespace Disk

/-- Writes some texts to files one after the other. A write that fails changes
nothing. -/
def writeAll (d : Disk) (writes : List (FilePath × String)) : Disk :=
  writes.foldl (fun d w =>
    match d.writeText w.1 w.2 with
    | .ok d => d
    | .error _ => d) d

theorem writeAll_cons_of_ok {d d' : Disk} {w : FilePath × String}
    (h : d.writeText w.1 w.2 = .ok d') (rest : List (FilePath × String)) :
    d.writeAll (w :: rest) = d'.writeAll rest := by
  rw [writeAll, List.foldl_cons, h]
  rfl

theorem writeAll_cons_of_error {d : Disk} {w : FilePath × String}
    {e : DiskError} (h : d.writeText w.1 w.2 = .error e)
    (rest : List (FilePath × String)) :
    d.writeAll (w :: rest) = d.writeAll rest := by
  rw [writeAll, List.foldl_cons, h]
  rfl

theorem realPath_writeAll {d : Disk} (hd : d.HasCurrent) {path real : FilePath}
    (hreal : d.realPath path = .ok real) (writes : List (FilePath × String)) :
    (d.writeAll writes).realPath path = .ok real := by
  induction writes generalizing d with
  | nil =>
      exact hreal
  | cons w rest ih =>
      cases hwrite : d.writeText w.1 w.2 with
      | error e =>
          rw [writeAll_cons_of_error hwrite]
          exact ih hd hreal
      | ok d' =>
          obtain ⟨r, -, hoverwrites⟩ := writeText_overwrites hd hwrite
          rw [writeAll_cons_of_ok hwrite]
          exact ih (hd.writeText hwrite) (hoverwrites.realPath hreal)

end Disk

namespace Documents

variable {disk : Disk} {path real : FilePath} {s : Documents}

/-! # Where the path leads -/

theorem notify_table (s : Documents) (method : String) (params : Json) :
    (s.notify method params).2.table = s.table := rfl

theorem find?_closeFile (hreal : disk.realPath path = .ok real) :
    (closeFile disk path s).2.table.find? real =
      (s.table.find? real).map fun _ => .closed := by
  have hcanonical := canonical_eq_ok_iff.mpr hreal
  cases hstate : s.table.find? real with
  | none =>
      simp only [closeFile, hcanonical, hstate, Option.map_none]
  | some state =>
      cases state with
      | closed =>
          simp only [closeFile, hcanonical, hstate, Option.map_some]
      | opened d =>
          simp only [closeFile, hcanonical, hstate, Option.map_some,
            notify_table, setState]
          exact DocumentTable.find?_set_self real .closed s.table

theorem find?_closeFile_of_ne (hreal : disk.realPath path ≠ .ok real) :
    (closeFile disk path s).2.table.find? real = s.table.find? real := by
  unfold closeFile
  split
  · rfl
  · next other hcanonical =>
      have hother := canonical_eq_ok_iff.mp hcanonical
      have hne : real ≠ other := by
        intro heq
        rw [heq] at hreal
        exact hreal hother
      split
      · exact DocumentTable.find?_set_of_ne hne .closed s.table
      · rfl

theorem closeFile_of_error {e : DiskError} (h : disk.realPath path = .error e) :
    closeFile disk path s =
      (.error (.documentNotFound
        s!"failed to resolve '{path.text}': {e.message}"), s) := by
  simp only [closeFile, canonical, h]

/-! # What stays open -/

def IsOpen (s : Documents) (real : FilePath) : Prop :=
  ∃ d, s.table.find? real = some (.opened d)

theorem isOpen_closeFile_iff :
    (closeFile disk path s).2.IsOpen real ↔ s.IsOpen real ∧
    disk.realPath path ≠ .ok real := by
  by_cases hreal : disk.realPath path = .ok real
  · have hclosed : ¬ (closeFile disk path s).2.IsOpen real := by
      rintro ⟨d, hd⟩
      rw [find?_closeFile hreal, Option.map_eq_some_iff] at hd
      obtain ⟨_, -, hd⟩ := hd
      exact nomatch hd
    exact iff_of_false hclosed fun h => h.2 hreal
  · rw [IsOpen, find?_closeFile_of_ne hreal]
    exact ⟨fun h => ⟨h, hreal⟩, And.left⟩

theorem find?_openFile_smallFile :
    (run {} [.openFile Client.twoLines.disk Client.smallFile]).table.find?
      Client.smallFile = some (.opened Client.smallDocument) := by
  show (openFile Client.twoLines.disk Client.smallFile {}).2.table.find? _ = _
  rw [openFile_of_load Client.twoLines_realPath rfl Client.load_twoLines
    ⟨rfl, rfl⟩]
  exact DocumentTable.find?_set_self _ _ _

/-- In whatever state documents are and whether or not the server can be told:
closing a file closes the document of the place to which its path leads on the
disk as it is then, and leaves all others as they are. So a document that was
opened through a path is closed through it if files were only written since; and
if the path leads nowhere any more, closing it fails and changes nothing. -/
theorem closes_where_path_leads (disk : Disk) (path : FilePath)
    (s : Documents) :
    (∀ real, (closeFile disk path s).2.IsOpen real ↔
      s.IsOpen real ∧ disk.realPath path ≠ .ok real) ∧
    (∀ real, disk.realPath path ≠ .ok real →
      (closeFile disk path s).2.table.find? real = s.table.find? real) ∧
    (∀ (opened : Disk) (real : FilePath) (writes : List (FilePath × String)),
      opened.HasCurrent → opened.realPath path = .ok real →
      ¬ (closeFile (opened.writeAll writes) path s).2.IsOpen real) ∧
    (∀ e, disk.realPath path = .error e → (closeFile disk path s).2 = s ∧
      (closeFile disk path s).1 =
        .error (.documentNotFound
          s!"failed to resolve '{path.text}': {e.message}")) := by
  refine ⟨fun real =>
    isOpen_closeFile_iff, fun real => find?_closeFile_of_ne, ?_, ?_⟩
  · intro opened real writes hcurrent hreal hopen
    exact (isOpen_closeFile_iff.mp hopen).2
      (Disk.realPath_writeAll hcurrent hreal writes)
  · intro e herror
    rw [closeFile_of_error herror]
    exact ⟨rfl, rfl⟩

/-- A file is opened and then written, and its document is closed
nevertheless. -/
theorem written_file_is_closed :
    (run {} [.openFile Client.twoLines.disk Client.smallFile]).IsOpen
      Client.smallFile ∧
    ¬ (closeFile (Client.twoLines.disk.writeAll [(Client.smallFile, "3\n")])
      Client.smallFile
      (run {} [.openFile Client.twoLines.disk Client.smallFile])).2.IsOpen
      Client.smallFile := by
  refine ⟨⟨_, find?_openFile_smallFile⟩, ?_⟩
  exact (closes_where_path_leads Client.twoLines.disk Client.smallFile _).2.2.1
    _ _ _ Client.twoLines_current Client.twoLines_realPath

/-! # A file that was removed -/

def removedFile : Disk :=
  Client.twoLines.disk.erase [[97]]

theorem realPath_removedFile :
    removedFile.realPath Client.smallFile = .error .noSuchFile := by
  have hlocate :
      removedFile.locate Client.smallFile = .ok (.missing [[97]]) := by
    show removedFile.walk Disk.maxLinks [] [[97]] = _
    rw [Disk.walk]
    rfl
  simp only [Disk.realPath, hlocate]

theorem remove_smallFile :
    Client.twoLines.disk.remove? Client.smallFile = some removedFile := by
  have hroot : Client.twoLines.disk.walk Disk.maxLinks [] [] =
      .ok (.found [] .directory) := by
    rw [Disk.walk]
    rfl
  have hsteps : (Disk.steps Client.smallFile).reverse = [[97]] := rfl
  have habsolute : Client.smallFile.isAbsolute = true := rfl
  have hplace :
      Client.twoLines.disk.ownPlace? Client.smallFile = some [[97]] := by
    simp only [Disk.ownPlace?, hsteps, habsolute, if_true,
      List.reverse_nil, hroot]
    rfl
  rw [Disk.remove?, hplace]
  rfl

/-- A file is opened and then removed from the disk. Closing it fails, and its
document is still open. -/
theorem removed_file_stays_open :
    Client.twoLines.disk.remove? Client.smallFile = some removedFile ∧
    (run {} [.openFile Client.twoLines.disk Client.smallFile]).table.find?
      Client.smallFile = some (.opened Client.smallDocument) ∧
    (run {} [.openFile Client.twoLines.disk Client.smallFile,
      .closeFile removedFile Client.smallFile]).table.find? Client.smallFile =
        some (.opened Client.smallDocument) := by
  refine ⟨remove_smallFile, find?_openFile_smallFile, ?_⟩
  show (closeFile removedFile Client.smallFile
    (run {} [.openFile Client.twoLines.disk Client.smallFile])).2.table.find?
    _ = _
  rw [closeFile_of_error realPath_removedFile]
  exact find?_openFile_smallFile

end Documents
end CodeIntel
