import CodeIntel.Proofs.Tool.Program
import Mathlib.Data.List.Forall2

/-!
# Batches of updates

A batch of new texts for files is prepared and then saved. To prepare an update
its file is opened and its edits are applied to its text, which is all or
nothing: either each file of the batch fits its edits, or nothing comes of the
batch and no file and no open document has changed.

To save the batch its texts are written one after another, and the server is
told of each. A file that several updates go to ends up with the text of the
last of them, whatever the others were.
-/

namespace CodeIntel
namespace Tool

variable {σ : Type} {a b c c' : Client σ} {file : Url × List TextEdit}
  {files : List (Url × List TextEdit)} {u : FileUpdate}
  {updates : List FileUpdate}

/-! # Fitting files -/

/-- The new text of a file can be worked out. -/
structure Fits (c : Client σ) (file : Url × List TextEdit) (u : FileUpdate) :
    Prop where
  path : u.path = file.1.toPath
  opens : ∃ uri, (Client.openFile file.1.toPath c).1 = .ok uri
  applies : ∃ old, c.text file.1.toPath = .ok old ∧
    TextEdit.applyAll old file.2 = .ok u.text

/-- What stands in the way of a file. -/
inductive Obstructed (c : Client σ) (file : Url × List TextEdit) : Prop where
  | unopened (f : ClientFault)
      (h : (Client.openFile file.1.toPath c).1 = .error f)
  | unreadable (e : DiskError) (h : c.text file.1.toPath = .error e)
  | rejected (old : String) (f : ToolFault) (h : c.text file.1.toPath = .ok old)
    (happly : TextEdit.applyAll old file.2 = .error f)

theorem Fits.not_obstructed (h : Fits c file u) : ¬ Obstructed c file := by
  obtain ⟨uri, hopens⟩ := h.opens
  obtain ⟨old, hold, happlies⟩ := h.applies
  intro hobstructed
  cases hobstructed with
  | unopened f hf =>
      rw [hopens] at hf
      exact nomatch hf
  | unreadable e he =>
      rw [hold] at he
      exact nomatch he
  | rejected old' f hold' hf =>
      obtain rfl := Except.ok.inj (hold.symm.trans hold')
      rw [happlies] at hf
      exact nomatch hf

/-! # Preparing -/

/-- A change that at most opens files, after which any file is opened or not as
before. -/
structure Preparing (c c' : Client σ) : Prop where
  opening : Client.Opening c c'
  opens : ∀ q, (Client.openFile q c').1 = (Client.openFile q c).1
  live : c.IsLive → c'.IsLive

theorem Preparing.refl (c : Client σ) : Preparing c c :=
  ⟨Client.Opening.refl c, fun _ => rfl, id⟩

theorem Preparing.trans (hab : Preparing a b) (hbc : Preparing b c) :
    Preparing a c :=
  ⟨hab.opening.trans hbc.opening, fun q => (hbc.opens q).trans (hab.opens q),
    hbc.live ∘ hab.live⟩

def AreOpen (c : Client σ) (updates : List FileUpdate) : Prop :=
  ∀ u ∈ updates, ∃ r d, c.disk.realPath u.path = .ok r ∧
    c.documents.table.find? r = some (.opened d)

theorem AreOpen.opening (h : AreOpen c updates)
    (hchange : Client.Opening c c') :
    AreOpen c' updates := by
  intro u hu
  obtain ⟨r, d, hreal, hd⟩ := h u hu
  exact ⟨r, d, by rw [hchange.disk, hreal], hchange.opened hd⟩

theorem Preparing.fits (h : Preparing c c') (hcurrent : c.disk.HasCurrent)
    (hfits : Fits c' file u) :
    Fits c file u := by
  obtain ⟨old, hold, happlies⟩ := hfits.applies
  refine ⟨hfits.path, ?_, old, ?_, happlies⟩
  · rw [← h.opens]
    exact hfits.opens
  · rw [← h.opening.text hcurrent, hold]

theorem Preparing.obstructed (h : Preparing c c') (hcurrent : c.disk.HasCurrent)
    (hobstructed : Obstructed c' file) : Obstructed c file := by
  cases hobstructed with
  | unopened f hf =>
      exact .unopened f (by rw [← h.opens, hf])
  | unreadable e he =>
      exact .unreadable e (by rw [← h.opening.text hcurrent, he])
  | rejected old f hold hf =>
      exact .rejected old f (by rw [← h.opening.text hcurrent, hold]) hf

theorem prepareUpdate_cases (hcurrent : c.disk.HasCurrent)
    (file : Url × List TextEdit) :
    (∃ u c', prepareUpdate file c = (.ok u, c') ∧ Fits c file u ∧
      Preparing c c' ∧ AreOpen c' [u]) ∨
    (∃ f c', prepareUpdate file c = (.error f, c') ∧ Obstructed c file ∧
      Client.Opening c c') := by
  have hopening := Client.opening_openFile file.1.toPath c
  unfold prepareUpdate
  rw [bind_apply]
  cases hopen : Client.openFile file.1.toPath c with
  | mk r after =>
      rw [hopen] at hopening
      cases r with
      | error f =>
          refine .inr ⟨.client f, after, ?_,
            .unopened f (by rw [hopen]), hopening⟩
          simp only [ask, hopen, Except.mapError]
      | ok uri =>
          have htext := hopening.text hcurrent file.1.toPath
          rw [ask_eq_ok.mpr hopen]
          simp only
          rw [bind_apply, readText_apply, htext]
          cases hold : c.text file.1.toPath with
          | error e =>
              exact .inr ⟨_, after, rfl, .unreadable e hold, hopening⟩
          | ok old =>
              simp only [Except.mapError]
              rw [bind_apply]
              cases happly : TextEdit.applyAll old file.2 with
              | error f =>
                  exact .inr ⟨f, after, rfl,
                    .rejected old f hold happly, hopening⟩
              | ok updated =>
                  refine .inl ⟨⟨file.1.toPath, file.2.length, updated⟩, after,
                    rfl, ?_, ?_, ?_⟩
                  · exact ⟨rfl, ⟨uri, by rw [hopen]⟩, old, hold, happly⟩
                  · exact ⟨hopening, Client.openFile_after hopen,
                      fun hlive => hlive.openFile hopen⟩
                  · intro u hu
                    rw [List.mem_singleton.mp hu]
                    obtain ⟨r, d, hreal, hd, -⟩ :=
                      Client.opened_of_openFile hopen
                    exact ⟨r, d, by rw [hopening.disk, hreal], hd⟩

/-- A batch is prepared if all its files fit, and otherwise nothing but opening
files is done. -/
theorem prepareAll_cases (hcurrent : c.disk.HasCurrent)
    (files : List (Url × List TextEdit)) :
    (∃ updates c', files.mapM prepareUpdate c = (.ok updates, c') ∧
      List.Forall₂ (Fits c) files updates ∧ Preparing c c' ∧
      AreOpen c' updates) ∨
    (∃ f c', files.mapM prepareUpdate c = (.error f, c') ∧
      (∃ file ∈ files, Obstructed c file) ∧ Client.Opening c c') := by
  induction files generalizing c with
  | nil =>
      exact .inl ⟨[], c, rfl, .nil, .refl c, fun u hu => nomatch hu⟩
  | cons file rest ih =>
      rw [List.mapM_cons, bind_apply]
      rcases prepareUpdate_cases hcurrent file with
        ⟨u, after, heq, hfits, hprepared, hopened⟩ |
        ⟨f, after, heq, hobstructed, hopening⟩
      · have hcurrent' : after.disk.HasCurrent := by
          rw [hprepared.opening.disk]
          exact hcurrent
        rw [heq]
        simp only
        rw [bind_apply]
        rcases ih hcurrent' with
          ⟨updates, c', hrest, hall, hpreparing, hopen⟩ |
          ⟨f, c', hrest, hex, hopening⟩
        · rw [hrest]
          refine .inl ⟨u :: updates, c', rfl, ?_,
            hprepared.trans hpreparing, ?_⟩
          · exact .cons hfits (hall.imp fun _ _ hfit =>
              hprepared.fits hcurrent hfit)
          · intro u' hu'
            rcases List.mem_cons.mp hu' with rfl | hu'
            · exact hopened.opening hpreparing.opening u'
                (List.mem_singleton.mpr rfl)
            · exact hopen u' hu'
        · rw [hrest]
          obtain ⟨other, hmem, hobstructed⟩ := hex
          exact .inr ⟨f, c', rfl, ⟨other, List.mem_cons_of_mem _ hmem,
            hprepared.obstructed hcurrent hobstructed⟩,
            hprepared.opening.trans hopening⟩
      · rw [heq]
        exact .inr ⟨f, after, rfl, ⟨file, List.mem_cons_self, hobstructed⟩,
          hopening⟩

/-! # Saving -/

/-- The updates that go to one file, by its real path. -/
def updatesOf (disk : Disk) (r : FilePath) (updates : List FileUpdate) :
    List FileUpdate :=
  updates.filter fun u => disk.realPath u.path = .ok r

/-- The text that the last of some updates gives a file, which is `old` if there
is none. -/
def finalText (old : String) (updates : List FileUpdate) : String :=
  (updates.getLast?.map FileUpdate.text).getD old

theorem finalText_cons (old : String) (u : FileUpdate)
    (updates : List FileUpdate) :
    finalText old (u :: updates) = finalText u.text updates := by
  unfold finalText
  rw [List.getLast?_cons]
  cases updates.getLast? <;> rfl

/-- What a batch that was saved has done to files and documents. -/
structure Saved (updates : List FileUpdate) (c c' : Client σ) : Prop where
  current : c'.disk.HasCurrent
  real : ∀ {q r}, c.disk.realPath q = .ok r → c'.disk.realPath q = .ok r
  kept :
    ∀ {q r old}, c.disk.realPath q = .ok r → updatesOf c.disk r updates = [] →
    c.disk.readText q = .ok old → c'.disk.readText q = .ok old
  written :
    ∀ {q r}, c.disk.realPath q = .ok r → updatesOf c.disk r updates ≠ [] →
    ∀ old, c'.disk.readText q = .ok (finalText old (updatesOf c.disk r updates))
  entry : ∀ {r d}, c.documents.table.find? r = some (.opened d) →
    c'.documents.table.find? r = some (.opened { d with
      version := d.version + (updatesOf c.disk r updates).length
      content := finalText d.content (updatesOf c.disk r updates) })

theorem Saved.nil (hcurrent : c.disk.HasCurrent) : Saved [] c c :=
  ⟨hcurrent, id, fun _ _ hread => hread, fun _ hne => absurd rfl hne,
    fun hd => hd⟩

theorem updatesOf_congr {disk disk' : Disk} (r : FilePath)
    (hreal : ∀ {q r}, disk.realPath q = .ok r → disk'.realPath q = .ok r)
    (hresolved : ∀ u ∈ updates, ∃ r, disk.realPath u.path = .ok r) :
    updatesOf disk' r updates = updatesOf disk r updates := by
  apply List.filter_congr
  intro u hu
  obtain ⟨r', hr'⟩ := hresolved u hu
  rw [hr', hreal hr']

theorem updatesOf_cons (disk : Disk) (r : FilePath) (u : FileUpdate)
    (updates : List FileUpdate) :
    updatesOf disk r (u :: updates) =
      if disk.realPath u.path = .ok r then u :: updatesOf disk r updates
      else updatesOf disk r updates := by
  simp only [updatesOf, List.filter_cons, decide_eq_true_eq]

structure UpdateSaved (u : FileUpdate) (c after : Client σ) (r : FilePath)
    (d : OpenDocument) : Prop where
  current : c.disk.HasCurrent
  real : c.disk.realPath u.path = .ok r
  opened : c.documents.table.find? r = some (.opened d)
  writes : c.disk.writeText u.path u.text = .ok after.disk
  table : after.documents.table = c.documents.table.set r
    (.opened { d with version := d.version + 1, content := u.text })
  told : after.connection = c.connection.told Documents.changeMethod
    (Documents.changeParams d.uri (d.version + 1) u.text)

theorem exists_updateSaved {after : Client σ} (hcurrent : c.disk.HasCurrent)
    (hopen : AreOpen c (u :: updates))
    (h : writeAndSync u.path u.text c = (.ok (), after)) :
    ∃ r d, UpdateSaved u c after r d := by
  obtain ⟨disk, r, d, hwrite, hr, hd, -, rfl, htable, htold⟩ :=
    writeAndSync_eq_ok h
  obtain ⟨q, -, hq, -⟩ := hopen u List.mem_cons_self
  obtain ⟨r', -, hover⟩ := Disk.writeText_overwrites hcurrent hwrite
  obtain rfl : q = r := Except.ok.inj ((hover.realPath hq).symm.trans hr)
  exact ⟨q, d, hcurrent, hq, hd, hwrite, htable, htold⟩

theorem AreOpen.tail (h : AreOpen c (u :: updates)) : AreOpen c updates :=
  fun u' hu' => h u' (List.mem_cons_of_mem u hu')

namespace UpdateSaved

variable {after : Client σ} {r s q : FilePath} {d e : OpenDocument}

theorem current_after (h : UpdateSaved u c after r d) : after.disk.HasCurrent :=
  h.current.writeText h.writes

theorem overwrites (h : UpdateSaved u c after r d) :
    c.disk.Overwrites after.disk r u.text := by
  obtain ⟨r', hr', hover⟩ := Disk.writeText_overwrites h.current h.writes
  obtain rfl : r' = r := Except.ok.inj (hr'.symm.trans (hover.realPath h.real))
  exact hover

theorem readText (h : UpdateSaved u c after r d)
    (hq : c.disk.realPath q = .ok r) :
    after.disk.readText q = .ok u.text := by
  rw [Disk.readText_congr h.current_after (h.overwrites.realPath hq)
    (h.overwrites.realPath h.real)]
  exact Disk.readText_writeText h.current h.writes

theorem entry_self (h : UpdateSaved u c after r d) :
    after.documents.table.find? r =
      some (.opened { d with
        version := d.version + 1, content := u.text }) := by
  rw [h.table, DocumentTable.find?_set_self]

theorem entry_of_ne (h : UpdateSaved u c after r d) (hs : s ≠ r) :
    after.documents.table.find? s = c.documents.table.find? s := by
  rw [h.table, DocumentTable.find?_set_of_ne hs]

theorem areOpen (h : UpdateSaved u c after r d) (hopen : AreOpen c updates) :
    AreOpen after updates := by
  intro u' hu'
  obtain ⟨s, e, hs, he⟩ := hopen u' hu'
  by_cases hsr : s = r
  · subst hsr
    exact ⟨s, _, h.overwrites.realPath hs, h.entry_self⟩
  · exact ⟨s, e, h.overwrites.realPath hs, (h.entry_of_ne hsr).trans he⟩

/-- The same updates go to each file as before. -/
theorem updatesOf_eq (h : UpdateSaved u c after r d) (hopen : AreOpen c updates)
    (s : FilePath) :
    updatesOf after.disk s updates = updatesOf c.disk s updates := by
  apply updatesOf_congr s h.overwrites.realPath
  intro u' hu'
  obtain ⟨t, -, ht, -⟩ := hopen u' hu'
  exact ⟨t, ht⟩

theorem isNamed (h : UpdateSaved u c after r d) (hnamed : c.documents.IsNamed) :
    after.documents.IsNamed := by
  intro p e he
  by_cases hp : p = r
  · subst hp
    rw [h.entry_self] at he
    cases he
    exact hnamed p d h.opened
  · rw [h.entry_of_ne hp] at he
    exact hnamed p e he

end UpdateSaved

theorem Saved.cons {r : FilePath} {d : OpenDocument} {after : Client σ}
    (h : UpdateSaved u c after r d) (hopen : AreOpen c updates)
    (hrest : Saved updates after c') :
    Saved (u :: updates) c c' := by
  have hsame := h.updatesOf_eq hopen
  have hover := h.overwrites
  have hother {s : FilePath} (hne : ¬ c.disk.realPath u.path = .ok s) :
      s ≠ r := by
    rintro rfl
    exact hne h.real
  constructor
  · exact hrest.current
  · intro q s hq
    exact hrest.real (hover.realPath hq)
  · intro q s old hq hnone hold
    rw [updatesOf_cons] at hnone
    split at hnone
    · cases hnone
    · next hne =>
        apply hrest.kept (hover.realPath hq) ((hsame s).trans hnone)
        rw [hover.readText hq hold, if_neg (hother hne)]
  · intro q s hq hsome old
    rw [updatesOf_cons] at hsome ⊢
    split
    · next heq =>
        obtain rfl : r = s := Except.ok.inj (h.real.symm.trans heq)
        rw [finalText_cons]
        by_cases hlater : updatesOf c.disk r updates = []
        · rw [hlater]
          exact hrest.kept (hover.realPath hq) ((hsame r).trans hlater)
            (h.readText hq)
        · rw [← hsame r] at hlater ⊢
          exact hrest.written (hover.realPath hq) hlater _
    · next hne =>
        rw [if_neg hne, ← hsame s] at hsome
        rw [← hsame s]
        exact hrest.written (hover.realPath hq) hsome _
  · intro s e he
    rw [updatesOf_cons]
    split
    · next heq =>
        obtain rfl : r = s := Except.ok.inj (h.real.symm.trans heq)
        obtain rfl : d = e := by simpa [h.opened] using he
        rw [hrest.entry h.entry_self, hsame r, finalText_cons, List.length_cons,
          Nat.add_assoc, Nat.add_comm 1]
    · next hne =>
        rw [← hsame s]
        exact hrest.entry ((h.entry_of_ne (hother hne)).trans he)

theorem saveAll_eq_ok (hcurrent : c.disk.HasCurrent) (hopen : AreOpen c updates)
    (h : updates.forM (fun u => writeAndSync u.path u.text) c = (.ok (), c')) :
    Saved updates c c' := by
  induction updates generalizing c with
  | nil =>
      obtain ⟨-, rfl⟩ := Prod.mk.inj h
      exact .nil hcurrent
  | cons u rest ih =>
      rw [List.forM, bind_eq_ok] at h
      obtain ⟨told, after, hfirst, hrest⟩ := h
      obtain ⟨r, d, hsaved⟩ := exists_updateSaved hcurrent hopen hfirst
      exact .cons hsaved hopen.tail
        (ih hsaved.current_after (hsaved.areOpen hopen.tail) hrest)

theorem saveAll_of_writable (hcurrent : c.disk.HasCurrent)
    (hopen : AreOpen c updates) (hlive : c.IsLive)
    (hwritable : ∀ u ∈ updates, ∃ disk, c.disk.writeText u.path u.text =
      .ok disk) :
    ∃ c', updates.forM (fun u => writeAndSync u.path u.text) c =
      (.ok (), c') := by
  induction updates generalizing c with
  | nil =>
      exact ⟨c, rfl⟩
  | cons u rest ih =>
      obtain ⟨disk, hwrite⟩ := hwritable u List.mem_cons_self
      obtain ⟨r, d, hr, hd⟩ := hopen u List.mem_cons_self
      obtain ⟨r', -, hover⟩ := Disk.writeText_overwrites hcurrent hwrite
      obtain ⟨after, htell, hlive', -, hdisk, -⟩ :=
        Client.changeFile_of_opened (c := { c with disk := disk }) hlive
          (hover.realPath hr) hd u.text
      have hfirst : writeAndSync u.path u.text c = (.ok (), after) := by
        rw [writeAndSync, bind_apply, writeText_apply, hwrite]
        simp only
        rw [bind_apply, ask_eq_ok.mpr htell]
        rfl
      obtain ⟨r, d, hsaved⟩ := exists_updateSaved hcurrent hopen hfirst
      have hwritable' : ∀ u' ∈ rest, ∃ disk',
          after.disk.writeText u'.path u'.text = .ok disk' := by
        intro u' hu'
        obtain ⟨s, -, hs, -⟩ := hopen.tail u' hu'
        rw [hdisk]
        exact Disk.exists_writeText_after hcurrent hs
          (hwritable u' (List.mem_cons_of_mem _ hu')) hwrite
      obtain ⟨c', hrest⟩ :=
        ih hsaved.current_after (hsaved.areOpen hopen.tail) hlive' hwritable'
      exact ⟨c', by rw [List.forM, bind_apply, hfirst]; exact hrest⟩

/-! # What the server is told -/

open Mock.Server (textAt versionOf)

def changeOf? (uri : Url) : Message → Option (Int × String)
  | .notification method params =>
    if method = Documents.changeMethod ∧ textAt ["textDocument", "uri"] params =
      uri.text then
      some (versionOf params, textAt ["contentChanges", "0", "text"] params)
    else none
  | _ => none

def lastChange? (uri : Url) (wire : List Message) : Option (Int × String) :=
  (wire.filterMap (changeOf? uri)).getLast?

theorem lastChange?_told (uri other : Url) (version : Nat) (text : String)
    (c : Connection) :
    lastChange? other (c.told Documents.changeMethod
        (Documents.changeParams uri version text)).wire =
      if uri = other then some (OpenDocument.wireVersion version, text)
      else lastChange? other c.wire := by
  obtain ⟨huri, htext⟩ := Mock.Server.textAt_changeParams uri version text
  have hsame : uri.text = other.text ↔ uri = other :=
    ⟨fun h => by cases uri; cases other; exact congrArg Url.mk h,
      congrArg Url.text⟩
  rw [lastChange?, Connection.told, List.filterMap_append]
  by_cases h : uri = other
  · subst h
    simp [changeOf?, huri, htext, Mock.Server.versionOf_changeParams]
  · simp [changeOf?, huri, hsame, h, lastChange?]

theorem saveAll_told (hcurrent : c.disk.HasCurrent) (hopen : AreOpen c updates)
    (hnamed : c.documents.IsNamed)
    (h : updates.forM (fun u => writeAndSync u.path u.text) c = (.ok (), c'))
    {r : FilePath} {d : OpenDocument}
    (hd : c.documents.table.find? r = some (.opened d)) :
    lastChange? d.uri c'.connection.wire =
      ((updatesOf c.disk r updates).getLast?.map fun u =>
        (OpenDocument.wireVersion
          (d.version + (updatesOf c.disk r updates).length), u.text)).or
        (lastChange? d.uri c.connection.wire) := by
  induction updates generalizing c d with
  | nil =>
      obtain ⟨-, rfl⟩ := Prod.mk.inj h
      rfl
  | cons u rest ih =>
      rw [List.forM, bind_eq_ok] at h
      obtain ⟨told, after, hfirst, hrest⟩ := h
      obtain ⟨q, e, hsaved⟩ := exists_updateSaved hcurrent hopen hfirst
      have hlater {f : OpenDocument}
          (hf : after.documents.table.find? r = some (.opened f)) :=
        ih hsaved.current_after (hsaved.areOpen hopen.tail)
          (hsaved.isNamed hnamed) hrest hf
      have hsame := hsaved.updatesOf_eq hopen.tail r
      rw [updatesOf_cons]
      by_cases hr : r = q
      · subst hr
        obtain rfl : d = e := by simpa [hd] using hsaved.opened
        refine (hlater hsaved.entry_self).trans ?_
        rw [hsame, if_pos hsaved.real, hsaved.told, lastChange?_told,
          if_pos rfl, List.getLast?_cons, List.length_cons]
        cases hlast : (updatesOf c.disk r rest).getLast? with
        | none =>
            rw [List.getLast?_eq_none_iff.mp hlast]
            rfl
        | some last =>
            simp only [Option.map_some, Option.some_or, Option.getD_some,
              Nat.add_assoc, Nat.add_comm 1]
      · have hne : ¬ c.disk.realPath u.path = .ok r := by
          intro heq
          exact hr (Except.ok.inj (heq.symm.trans hsaved.real))
        refine (hlater ((hsaved.entry_of_ne hr).trans hd)).trans ?_
        rw [hsame, if_neg hne, hsaved.told, lastChange?_told,
          if_neg (hnamed.uri_ne hd hsaved.opened (Ne.symm hr))]

end Tool
end CodeIntel
