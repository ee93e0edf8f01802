import DotMatrix.Proofs.Storage.Accepts
import DotMatrix.Proofs.Storage.Names

/-!
# Trees of files and folders

In a tree no location is a file and a folder at once, and no save changes that (`Consistent`). So a
path that a file is found at ends in the name of the file (`names_of_find`), and the file can be
overwritten (`save_of_find`).
-/

namespace DotMatrix.Storage

/-- Where there is a folder there is no file. -/
def Consistent (s : Storage) : Prop := ∀ loc, s.isFolder loc = true → s.fileAt? loc = none

/-! ## Folders -/

theorem isFolder_iff {s : Storage} {loc : Location} :
    s.isFolder loc = true ↔
      loc = [] ∨ (∃ made ∈ s.folders, loc <+: made) ∨
        ∃ entry ∈ s.files, loc <+: entry.1 ∧ entry.1 ≠ loc := by
  unfold isFolder
  simp [or_assoc]

/-- What a folder is in is a folder. -/
theorem isFolder_outer {s : Storage} {loc outer : Location} (h : s.isFolder loc = true)
    (hbegins : outer <+: loc) : s.isFolder outer = true := by
  rw [isFolder_iff] at h ⊢
  rcases h with rfl | ⟨made, hmem, hmade⟩ | ⟨entry, hmem, hfile, hne⟩
  · exact .inl (List.prefix_nil.1 hbegins)
  · exact .inr (.inl ⟨made, hmem, hbegins.trans hmade⟩)
  · refine .inr (.inr ⟨entry, hmem, hbegins.trans hfile, ?_⟩)
    rintro rfl
    exact hne (hbegins.eq_of_length_le hfile.length_le)

/-- A step to a name leads to that name in a folder. -/
theorem step_name {s : Storage} {folder loc : Location} {name : String}
    (h : s.step folder name = .ok loc) (hname : name ≠ "." ∧ name ≠ "..") :
    loc = folder ++ [name] ∧ s.isFolder folder = true := by
  obtain ⟨hfolder, -, rfl⟩ := step_ok h
  refine ⟨?_, (checkFolder_ok_iff.1 hfolder).2⟩
  unfold Location.enter
  rw [if_neg hname.1, if_neg hname.2]

/-! ## Trees stay consistent -/

theorem consistent_emptyTree (home : Location) : (emptyTree home).Consistent := fun _ _ => rfl

namespace Consistent

variable {s s' : Storage} {home : Location} {path : String} {loc : Location}

/-- A file is put where no folder is, in a folder that is there. -/
theorem put (h : s.Consistent) (hplace : s.findPlace home path = .ok loc) (bytes : ByteArray) :
    (s.put loc bytes).Consistent := by
  obtain ⟨⟨front, name, hsegments, hname⟩, -, hfind, hfree⟩ := findPlace_ok_iff.1 hplace
  have hway := (find_ok_iff.1 hfind).2.1
  rw [hsegments] at hway
  obtain ⟨folder, -, hstep⟩ := foldlM_step_concat.1 hway
  obtain ⟨rfl, hfolder⟩ := step_name hstep hname
  have hbefore : ∀ other, (s.put (folder ++ [name]) bytes).isFolder other = true →
      s.isFolder other = true := by
    intro other hother
    rcases isFolder_iff.1 hother with hroot | hmade | ⟨entry, hmem, hfile, hne⟩
    · exact isFolder_iff.2 (.inl hroot)
    · exact isFolder_iff.2 (.inr (.inl hmade))
    · rcases List.mem_cons.1 hmem with rfl | hmem
      · exact isFolder_outer hfolder
          ((List.prefix_concat_iff.1 hfile).resolve_left fun heq => hne heq.symm)
      · exact isFolder_iff.2 (.inr (.inr ⟨entry, (List.mem_filter.1 hmem).1, hfile, hne⟩))
  intro other hother
  have hsame := hbefore other hother
  rw [fileAt?_put, if_neg]
  · exact h other hsame
  · rintro rfl
    rw [hfree] at hsame
    cases hsame

/-- A folder is made where no file is, in a folder that is there. -/
theorem makeFolder (h : s.Consistent) (hmade : s.makeFolder home path = .ok s') :
    s'.Consistent := by
  obtain ⟨⟨folder, name⟩, hfolder, hmade⟩ := bind_ok hmade
  cases name with
  | none =>
    cases Except.ok.inj hmade
    exact h
  | some name =>
    obtain ⟨loc, hstep, hmade⟩ := bind_ok hmade
    have hname : name ≠ "." ∧ name ≠ ".." := by
      obtain ⟨⟨⟩, -, hfolder⟩ := bind_ok hfolder
      obtain ⟨_, -, hfolder⟩ := bind_ok hfolder
      obtain ⟨⟨⟩, -, hfolder⟩ := bind_ok hfolder
      simpa using (Option.filter_eq_some_iff.1 (Prod.mk.inj (Except.ok.inj hfolder)).2).2
    obtain ⟨rfl, hfolder⟩ := step_name hstep hname
    cases hfile : s.fileAt? (folder ++ [name]) with
    | some bytes =>
      rw [hfile] at hmade
      cases hmade
    | none =>
      rw [hfile] at hmade
      obtain rfl := Except.ok.inj hmade
      split
      · exact h
      · intro other hother
        rcases isFolder_iff.1 hother with hroot | ⟨made, hmem, hbegins⟩ | hinside
        · exact h other (isFolder_iff.2 (.inl hroot))
        · rcases List.mem_cons.1 hmem with rfl | hmem
          · rcases List.prefix_concat_iff.1 hbegins with rfl | hbegins
            · exact hfile
            · exact h other (isFolder_outer hfolder hbegins)
          · exact h other (isFolder_iff.2 (.inr (.inl ⟨made, hmem, hbegins⟩)))
        · exact h other (isFolder_iff.2 (.inr (.inr hinside)))

theorem attempt (h : s.Consistent) :
    (s.attempt (s.makeFolder home path)).2.Consistent := by
  cases hmade : s.makeFolder home path with
  | error cause => exact h
  | ok s' => exact h.makeFolder hmade

theorem makeNested (h : s.Consistent) (paths : List String) :
    (s.makeNested home paths).2.Consistent := by
  induction paths generalizing s with
  | nil => exact h
  | cons path outer ih =>
    unfold Storage.makeNested
    split
    · have houter := ih h
      split
      · rename_i hmade
        rw [hmade] at houter
        exact houter.attempt
      · exact houter
    · exact h.attempt

theorem write (h : s.Consistent) (hmedium : s.medium = .tree home) (bytes : ByteArray) :
    (s.write path bytes).2.Consistent := by
  unfold Storage.write place
  rw [hmedium]
  dsimp only
  cases hplace : s.findPlace home path with
  | error cause => exact h
  | ok loc => exact h.put hplace bytes

/-- A save keeps a tree consistent, also if it is refused halfway. -/
theorem save (h : s.Consistent) (hmedium : s.medium = .tree home) (path : String)
    (bytes : ByteArray) : (s.save path bytes).2.Consistent := by
  have hfolders : (s.makeFolders path).2.Consistent := by
    unfold makeFolders
    rw [hmedium]
    exact h.makeNested _
  have hmedium' : (s.makeFolders path).2.medium = .tree home :=
    (s.addsFolders_makeFolders path).extends.medium.trans hmedium
  unfold Storage.save writeDeep
  rcases hmade : s.makeFolders path with ⟨failed | _, made⟩
  · rw [hmade] at hfolders
    exact hfolders
  · rw [hmade] at hfolders hmedium'
    have hwritten : (made.write path bytes).2.Consistent := hfolders.write hmedium' bytes
    dsimp only
    rcases hwrite : made.write path bytes with ⟨failed | _, written⟩ <;> rw [hwrite] at hwritten
    · exact hwritten
    -- the journal says nothing about files and folders
    · exact hwritten

end Consistent

/-! ## Paths of files -/

/-- A path that a file is found at ends in a name. -/
theorem names_of_find {s : Storage} (h : s.Consistent) {home : Location} {path : String}
    {loc : Location} (hfind : s.find home path = .ok loc) {bytes : ByteArray}
    (hfile : s.fileAt? loc = some bytes) :
    ∃ folder name, Path.Names path.toList folder name := by
  obtain ⟨hpath, hway, hslash⟩ := find_ok_iff.1 hfind
  have hnoFolder : s.isFolder loc ≠ true := fun hfolder => by
    rw [h loc hfolder] at hfile
    cases hfile
  obtain ⟨folder, last, hsplit⟩ : ∃ folder last, Path.split path.toList = folder ++ [last] :=
    ⟨_, _, (List.dropLast_concat_getLast (Path.split_ne_nil path.toList)).symm⟩
  have htext := Path.unsplit_split path.toList
  rw [hsplit] at htext
  have hmem : ∀ segment ∈ folder ++ [last], '/' ∉ segment := fun segment hsegment =>
    Path.slash_not_mem_of_mem_split (hsplit ▸ hsegment)
  have hne : last ≠ [] := by
    rintro rfl
    cases hfolder : folder.getLast? with
    | none =>
      -- the empty path is not looked up
      rw [List.getLast?_eq_none_iff.1 hfolder] at htext
      have hempty : path = "" := String.toList_eq_nil_iff.1 htext.symm
      rw [hempty] at hpath
      cases hpath
    | some before =>
      obtain ⟨outer, rfl⟩ := List.getLast?_eq_some_iff.1 hfolder
      have hends : endsInSlash path = true := by
        unfold endsInSlash
        rw [← htext, Path.unsplit_concat]
        simp
      exact hnoFolder (checkFolder_ok_iff.1 (hslash hends)).2
  -- the last step is made in a folder, which the dots do not lead out of
  rw [segments_of_split hsplit hne] at hway
  obtain ⟨inner, -, hstep⟩ := foldlM_step_concat.1 hway
  obtain ⟨hinner, -, hloc⟩ := step_ok hstep
  have hfolder := (checkFolder_ok_iff.1 hinner).2
  refine ⟨folder, last, htext.symm, fun s hs => hmem s (List.mem_append_left _ hs),
    hmem last (by simp), hne, ?_, ?_⟩
  · rintro rfl
    rw [hloc] at hnoFolder
    exact hnoFolder hfolder
  · rintro rfl
    rw [hloc] at hnoFolder
    exact hnoFolder (isFolder_outer hfolder (List.dropLast_prefix inner))

/-- A file that can be read is found at its path. -/
theorem read_tree_ok {s : Storage} {home : Location} (hmedium : s.medium = .tree home)
    {path : String} {bytes : ByteArray} (h : s.read path = .ok bytes) :
    s.find home path = .ok (s.target path) ∧ s.contents path = some bytes := by
  unfold read at h
  rw [hmedium] at h
  obtain ⟨loc, hfind, hread⟩ := bind_ok h
  have htarget : s.target path = loc := by
    unfold target
    rw [hmedium, follow_of_find hfind]
  unfold contents
  rw [htarget]
  refine ⟨hfind, ?_⟩
  cases hfile : s.fileAt? loc with
  | none =>
    rw [hfile] at hread
    cases hread
  | some file =>
    rw [hfile] at hread
    rw [Except.ok.inj hread]

/-! ## Files that can be overwritten -/

theorem checkPath_ok_iff {path : String} :
    checkPath path = .ok () ↔
      '\x00' ∉ path.toList ∧ path.utf8ByteSize ≤ maxPathSize ∧ path ≠ "" := by
  unfold checkPath
  split
  · simp_all
  · split
    · rename_i hlong
      simp [Nat.not_le.2 hlong]
    · split <;> simp_all

/-- The beginning of a path is no worse than the path, unless it is empty. -/
theorem checkPath_outer {path outer : String} (h : checkPath path = .ok ())
    (hbegins : outer.toList <+: path.toList) (hne : outer ≠ "") : checkPath outer = .ok () := by
  obtain ⟨hzero, hshort, -⟩ := checkPath_ok_iff.1 h
  obtain ⟨rest, hrest⟩ := hbegins
  have hpath : path = outer ++ String.ofList rest := by
    apply String.toList_injective
    rw [String.toList_append, String.toList_ofList, hrest]
  refine checkPath_ok_iff.2 ⟨fun hmem => hzero ?_, ?_, hne⟩
  · rw [← hrest]
    exact List.mem_append_left _ hmem
  · rw [hpath, String.utf8ByteSize_append] at hshort
    exact (Nat.le_add_right _ _).trans hshort

theorem start_outer {path outer : String} (hbegins : outer.toList <+: path.toList)
    (hne : outer ≠ "") (home : Location) : start home outer = start home path := by
  obtain ⟨rest, hrest⟩ := hbegins
  unfold start
  rw [← hrest, List.head?_append_of_ne_nil]
  exact fun hnil => hne (String.toList_eq_nil_iff.1 hnil)

/-- What says nothing leads nowhere. -/
theorem lead_blank {blank : List (List Char)} (h : ∀ s ∈ blank, s = [] ∨ s = ['.'])
    (here : Location) : lead here blank = here := by
  induction blank with
  | nil => rfl
  | cons first rest ih =>
    have hrest : lead here rest = here := ih fun s hs => h s (List.mem_cons_of_mem _ hs)
    rcases h first List.mem_cons_self with rfl | rfl
    · exact hrest
    · exact hrest

section Found

variable {s : Storage} {home : Location} {path : String} {loc : Location}
  {folder : List (List Char)} {name : List Char} (h : Path.Names path.toList folder name)
  (hfind : s.find home path = .ok loc)
include h hfind

/-- With a path the folder that it is in can be found. -/
theorem find_folder (hne : Path.trim folder ≠ []) :
    ∃ inner, s.find home (String.ofList (Path.unsplit (Path.trim folder))) = .ok inner ∧
      s.checkFolder inner = .ok () := by
  obtain ⟨hpath, hway, -⟩ := find_ok_iff.1 hfind
  rw [segments_of_names h] at hway
  obtain ⟨inner, hfront, hstep⟩ := foldlM_step_concat.1 hway
  have hinner := (step_ok hstep).1
  obtain ⟨blank, hblank, hnothing⟩ := Path.trim_append folder
  generalize htrim : Path.trim folder = said at *
  have hsplit : Path.split (Path.unsplit said) = said :=
    Path.split_unsplit (fun s hs => h.folder s (hblank ▸ List.mem_append_left blank hs)) hne
  -- what is trimmed off leads no further
  have hsaid : ((said.filter (· ≠ [])).map String.ofList).foldlM s.step (start home path) =
      .ok inner := by
    rw [hblank, List.filter_append, List.map_append, List.foldlM_append] at hfront
    obtain ⟨inner', hsaid, hrest⟩ := bind_ok hfront
    rw [foldl_of_foldlM_step hrest]
    exact hsaid.trans (congrArg Except.ok (lead_blank hnothing inner').symm)
  have hnonempty : String.ofList (Path.unsplit said) ≠ "" := fun hempty => by
    rw [String.ofList_eq_empty_iff.1 hempty] at hsplit
    exact Path.trim_ne_blank folder (htrim.trans hsplit.symm)
  have hbegins : (String.ofList (Path.unsplit said)).toList <+: path.toList := by
    obtain ⟨front, last, rfl⟩ := (List.eq_nil_or_concat' said).resolve_left hne
    refine ⟨'/' :: (blank.flatMap (· ++ ['/']) ++ name), ?_⟩
    rw [h.path, hblank, String.toList_ofList, Path.unsplit_concat, Path.unsplit_concat]
    simp
  refine ⟨inner, find_ok_iff.2 ⟨checkPath_outer hpath hbegins hnonempty, ?_,
    fun _ => hinner⟩, hinner⟩
  unfold segments
  rw [String.toList_ofList, hsplit, start_outer hbegins hnonempty]
  exact hsaid

/-- A file that can be found can be saved to. -/
theorem save_of_find (hmedium : s.medium = .tree home) (hfree : s.isFolder loc = false)
    (bytes : ByteArray) : (s.save path bytes).1 = .ok () := by
  have hfolders : s.makeFolders path = (.ok (), s) := by
    unfold makeFolders
    rw [hmedium]
    dsimp only
    rcases Path.folders_of_names h with hnone | ⟨hne, outer, hfolders⟩
    · rw [hnone]
      rfl
    · obtain ⟨inner, hinner, hfolder⟩ := find_folder h hfind hne
      rw [hfolders, makeNested, makeFolder_of_find hinner hfolder]
      rfl
  have hends : endsInSlash path = false := by
    unfold endsInSlash
    rw [h.path, Path.unsplit_concat, List.getLast?_append_of_ne_nil _ h.ne_nil]
    exact decide_eq_false fun hlast => h.slash (List.mem_of_getLast? hlast)
  have hplace : s.place path = .ok loc := by
    unfold place
    rw [hmedium]
    exact findPlace_ok_iff.2 ⟨⟨_, _, segments_of_names h, h.proper⟩, hends, hfind, hfree⟩
  exact save_of_place hfolders hplace bytes

end Found

/-- A later storage has a file at a path, and what could be found before can be found. -/
structure Retains (before s : Storage) (path : String) : Prop where
  consistent : s.Consistent
  found : before.Extends s
  file : ∃ bytes, s.contents path = some bytes

namespace Retains

variable {before s : Storage} {home : Location} {path : String}
  (hmedium : before.medium = .tree home)
include hmedium

theorem save (h : before.Retains s path) (other : String) (bytes : ByteArray) :
    before.Retains (s.save other bytes).2 path := by
  have hmedium' := h.found.medium.trans hmedium
  refine ⟨h.consistent.save hmedium' other bytes, h.found.trans (extends_save hmedium' other bytes),
    ?_⟩
  obtain ⟨file, hfile⟩ := h.file
  by_cases hok : (s.save other bytes).1 = .ok ()
  · rw [contents_save hok]
    split
    · exact ⟨bytes, rfl⟩
    · exact ⟨file, hfile⟩
  · exact ⟨file, (contents_of_refused hok path).trans hfile⟩

/-- The file can be saved to at any path at which it could be found before. -/
theorem save_found (h : before.Retains s path) {other : String}
    (hfind : before.find home other = .ok (before.target path)) (bytes : ByteArray) :
    (s.save other bytes).1 = .ok () := by
  have hfind' : s.find home other = .ok (s.target path) := by
    rw [target_of_medium h.found.medium]
    exact h.found.find hfind
  obtain ⟨file, hfile⟩ := h.file
  obtain ⟨folder, name, hnames⟩ := names_of_find h.consistent hfind' hfile
  refine save_of_find hnames hfind' (h.found.medium.trans hmedium) ?_ bytes
  refine eq_false_of_ne_true fun hfolder => ?_
  have hnone : s.contents path = none := h.consistent _ hfolder
  rw [hfile] at hnone
  cases hnone

theorem contents_found (h : before.Retains s path) {other : String}
    (hfind : before.find home other = .ok (before.target path)) :
    s.contents other = s.contents path := by
  have htarget : before.target other = before.target path := by
    rw [follow_of_find hfind]
    unfold target
    rw [hmedium]
  unfold contents
  rw [target_of_medium h.found.medium, target_of_medium h.found.medium, htarget]

end Retains

end DotMatrix.Storage
