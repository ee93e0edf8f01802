import DotMatrix.Proofs.Storage.Tree
import Mathlib.Data.List.Nodup

/-!
# Storages that accept everything

`Accepts` says of some paths that the storage never refuses to read or write them. Such a storage
behaves as a table of these paths, whatever its medium (`Accepts.save`): a save changes what is at
its own path and nothing else, and a load gives what was saved last.
-/

namespace DotMatrix.Storage

/-! ## What is at a path -/

/-- The location that a path leads to if nothing is in the way. -/
def target (s : Storage) (path : String) : Location :=
  match s.medium with
  | .table _ _ => [path]
  | .tree home => follow (start home path) path

/-- The file at the location that a path leads to. -/
def contents (s : Storage) (path : String) : Option ByteArray := s.fileAt? (s.target path)

/-- A load gives the file at the location that the path leads to. -/
def Delivers (s : Storage) (path : String) : Prop :=
  ∀ limit, s.load path limit = .ok ((s.contents path).map (·.extract 0 limit))

theorem target_of_medium {s s' : Storage} (h : s'.medium = s.medium) (path : String) :
    s'.target path = s.target path := by
  unfold target
  rw [h]

/-! ## Saving -/

theorem place_ok {s : Storage} {path : String} {loc : Location} (h : s.place path = .ok loc) :
    loc = s.target path ∧
      ∀ home, s.medium = .tree home → s.find home path = .ok loc ∧ s.isFolder loc = false := by
  unfold place at h
  unfold target
  cases hmedium : s.medium with
  | table unreadable unwritable =>
    rw [hmedium] at h
    dsimp only at h
    split at h
    · cases h
    · exact ⟨(Except.ok.inj h).symm, fun home hcontra => (by cases hcontra)⟩
  | tree home =>
    rw [hmedium] at h
    have hfound := find_of_findPlace h
    refine ⟨follow_of_find hfound.1, fun home' hhome => ?_⟩
    cases hhome
    exact hfound

theorem write_ok {s : Storage} {path : String} {bytes : ByteArray}
    (h : (s.write path bytes).1 = .ok ()) :
    s.place path = .ok (s.target path) ∧
      (s.write path bytes).2 = s.put (s.target path) bytes := by
  unfold write attempt at *
  cases hplace : s.place path with
  | error cause =>
    rw [hplace] at h
    cases h
  | ok loc =>
    rw [(place_ok hplace).1]
    exact ⟨rfl, rfl⟩

theorem addsFolders_makeFolders (s : Storage) (path : String) :
    s.AddsFolders (s.makeFolders path).2 := by
  unfold makeFolders
  split
  · exact .refl s
  · exact addsFolders_makeNested s _ _

/-- A save that was accepted made folders, wrote the file, and noted it in the journal. -/
theorem save_ok {s : Storage} {path : String} {bytes : ByteArray}
    (h : (s.save path bytes).1 = .ok ()) :
    ∃ made, s.AddsFolders made ∧ made.place path = .ok (s.target path) ∧
      (s.save path bytes).2 =
        { made.put (s.target path) bytes with journal := (path, bytes) :: made.journal } := by
  have hmade := addsFolders_makeFolders s path
  unfold save writeDeep at *
  rcases hfolders : s.makeFolders path with ⟨failed | _, made⟩
  · rw [hfolders] at h
    cases h
  · rw [hfolders] at h hmade
    dsimp only at h hmade ⊢
    -- where a path leads to depends on the medium alone
    have htarget : made.target path = s.target path := target_of_medium hmade.extends.medium path
    rcases hwrite : made.write path bytes with ⟨failed | _, written⟩
    · rw [hwrite] at h
      cases h
    · obtain ⟨hplace, hwritten⟩ := write_ok (s := made) (by rw [hwrite])
      rw [hwrite] at hwritten
      rw [htarget] at hplace hwritten
      refine ⟨made, hmade, hplace, ?_⟩
      rw [show written = _ from hwritten]
      rfl

/-- A save that is refused may have made folders, and nothing else. -/
theorem addsFolders_of_refused {s : Storage} {path : String} {bytes : ByteArray}
    (h : (s.save path bytes).1 ≠ .ok ()) : s.AddsFolders (s.save path bytes).2 := by
  have hmade := s.addsFolders_makeFolders path
  unfold save writeDeep at *
  rcases hfolders : s.makeFolders path with ⟨cause | _, made⟩
  · rw [hfolders] at hmade
    exact hmade
  · rw [hfolders] at h hmade
    dsimp only at h hmade ⊢
    unfold write at *
    cases hput : (made.place path).map (made.put · bytes) with
    | error cause => exact hmade
    | ok changed =>
      rw [hput] at h
      exact absurd rfl h

theorem contents_of_refused {s : Storage} {path : String} {bytes : ByteArray}
    (h : (s.save path bytes).1 ≠ .ok ()) (other : String) :
    (s.save path bytes).2.contents other = s.contents other := by
  have hadds := addsFolders_of_refused h
  unfold contents
  rw [target_of_medium hadds.extends.medium, hadds.fileAt?]

theorem journal_of_refused {s : Storage} {path : String} {bytes : ByteArray}
    (h : (s.save path bytes).1 ≠ .ok ()) : (s.save path bytes).2.journal = s.journal := by
  obtain ⟨more, hadds⟩ := addsFolders_of_refused h
  rw [hadds]

theorem medium_save (s : Storage) (path : String) (bytes : ByteArray) :
    (s.save path bytes).2.medium = s.medium := by
  by_cases hok : (s.save path bytes).1 = .ok ()
  · obtain ⟨made, hmade, -, hsaved⟩ := save_ok hok
    rw [hsaved]
    exact hmade.extends.medium
  · exact (addsFolders_of_refused hok).extends.medium

/-- A save changes what is at the location that its path leads to, and nothing else. -/
theorem contents_save {s : Storage} {path : String} {bytes : ByteArray}
    (h : (s.save path bytes).1 = .ok ()) (other : String) :
    (s.save path bytes).2.contents other =
      if s.target other = s.target path then some bytes else s.contents other := by
  obtain ⟨made, hmade, -, hsaved⟩ := save_ok h
  unfold contents
  rw [target_of_medium (s.medium_save path bytes), hsaved]
  exact (fileAt?_put _ _ _ _).trans (by rw [hmade.fileAt?])

/-- A save, accepted or not, changes no file at another location. -/
theorem contents_save_of_ne {s : Storage} {path other : String} (h : s.target other ≠ s.target path)
    (bytes : ByteArray) : (s.save path bytes).2.contents other = s.contents other := by
  by_cases hok : (s.save path bytes).1 = .ok ()
  · rw [contents_save hok, if_neg h]
  · exact contents_of_refused hok other

theorem journal_save (s : Storage) (path : String) (bytes : ByteArray) :
    (s.save path bytes).2.journal = s.journal ∨
      (s.save path bytes).2.journal = (path, bytes) :: s.journal := by
  by_cases hok : (s.save path bytes).1 = .ok ()
  · obtain ⟨made, ⟨more, rfl⟩, -, hsaved⟩ := save_ok hok
    rw [hsaved]
    exact .inr rfl
  · exact .inl (journal_of_refused hok)

/-- The journal is no part of what can be found. -/
theorem extends_put_journal {s : Storage} {loc : Location} (h : s.isFolder loc = false)
    (bytes : ByteArray) (journal : List (String × ByteArray)) :
    s.Extends { s.put loc bytes with journal } :=
  ⟨rfl, (extends_put h bytes).folder⟩

/-- What could be found in a tree can be found after a save, accepted or not. -/
theorem extends_save {s : Storage} {home : Location} (hmedium : s.medium = .tree home)
    (path : String) (bytes : ByteArray) : s.Extends (s.save path bytes).2 := by
  by_cases hok : (s.save path bytes).1 = .ok ()
  · obtain ⟨made, hmade, hplace, hsaved⟩ := save_ok hok
    obtain ⟨-, hfree⟩ := (place_ok hplace).2 home (hmade.extends.medium.trans hmedium)
    rw [hsaved]
    exact hmade.extends.trans (extends_put_journal hfree bytes _)
  · exact (addsFolders_of_refused hok).extends

/-- What was saved can be found. -/
theorem find_save_self {s : Storage} {home : Location} {path : String} {bytes : ByteArray}
    (hmedium : s.medium = .tree home) (h : (s.save path bytes).1 = .ok ()) :
    (s.save path bytes).2.find home path = .ok (s.target path) := by
  obtain ⟨made, hmade, hplace, hsaved⟩ := save_ok h
  obtain ⟨hfind, hfree⟩ := (place_ok hplace).2 home (hmade.extends.medium.trans hmedium)
  rw [hsaved]
  exact (extends_put_journal hfree bytes _).find hfind

/-! ## Loading -/

theorem load_table {s : Storage} {unreadable unwritable : List String}
    (hmedium : s.medium = .table unreadable unwritable) (path : String) (limit : Nat) :
    s.load path limit =
      if unreadable.contains path then .error .loadRefused
      else .ok ((s.contents path).map (·.extract 0 limit)) := by
  unfold load contents target
  rw [hmedium]

theorem load_of_find {s : Storage} {home : Location} {path : String}
    (hmedium : s.medium = .tree home) (hfind : s.find home path = .ok (s.target path))
    (limit : Nat) :
    s.load path limit =
      match s.contents path with
      | some bytes => .ok (some (bytes.extract 0 limit))
      | none =>
        if !s.isFolder (s.target path) then .ok none
        else if limit = 0 then .ok (some ByteArray.empty)
        else .error (.system .isDirectory) := by
  unfold load contents
  rw [hmedium]
  cases hfile : s.fileAt? (s.target path) <;> simp [hfind, hfile]

/-- A path of a tree that loads deliver from can be found, or there is nothing to find. -/
theorem Delivers.find_or_nothing {s : Storage} {home : Location} {path : String}
    (hmedium : s.medium = .tree home) (h : s.Delivers path) :
    s.contents path = none ∨ s.find home path = .ok (s.target path) := by
  -- with a limit of zero a folder would answer as well
  have hload := h 1
  unfold load at hload
  rw [hmedium] at hload
  dsimp only at hload
  split at hload
  · left
    cases hcontents : s.contents path with
    | none => rfl
    | some bytes =>
      rw [hcontents] at hload
      cases hload
  · cases hload
  · rename_i loc hfind
    right
    rw [hfind, follow_of_find hfind]
    unfold target
    rw [hmedium]

/-- Loads that do not fail deliver, unless something is in the way of a file. -/
theorem delivers_of_loads {s : Storage} {path : String}
    (hloads : ∀ limit, ∃ answer, s.load path limit = .ok answer)
    (hfound : ∀ home, s.medium = .tree home →
      s.contents path = none ∨ s.find home path = .ok (s.target path)) : s.Delivers path := by
  intro limit
  obtain ⟨answer, hload⟩ := hloads limit
  cases hmedium : s.medium with
  | table unreadable unwritable =>
    rw [load_table hmedium] at hload ⊢
    split at hload
    · cases hload
    · rename_i hreadable
      rw [if_neg hreadable]
  | tree home =>
    by_cases hfind : s.find home path = .ok (s.target path)
    · cases hcontents : s.contents path with
      | some bytes =>
        rw [load_of_find hmedium hfind, hcontents]
        rfl
      | none =>
        -- a folder at the location would show when a byte is asked for
        obtain ⟨answer', hload'⟩ := hloads 1
        rw [load_of_find hmedium hfind, hcontents] at hload'
        dsimp only at hload'
        rw [load_of_find hmedium hfind, hcontents]
        cases hfolder : s.isFolder (s.target path) with
        | false => rfl
        | true =>
          rw [hfolder] at hload'
          cases hload'
    · have hnothing := (hfound home hmedium).resolve_right hfind
      rw [hnothing]
      unfold load at hload ⊢
      rw [hmedium] at hload ⊢
      dsimp only at hload ⊢
      split at hload
      · rfl
      · cases hload
      · rename_i loc hother
        have hloc : loc = s.target path := by
          rw [follow_of_find hother]
          unfold target
          rw [hmedium]
        exact absurd (hloc ▸ hother) hfind

/-! ## Accepting storages -/

/-- Saves one after another. -/
def saveAll (s : Storage) (saved : List (String × ByteArray)) : Storage :=
  saved.foldl (fun s entry => (s.save entry.1 entry.2).2) s

/-- The storage never refuses to load from some paths and to save to some of these, whatever has
been saved to them. Different paths lead to different locations, from which loads deliver. -/
structure Accepts (s : Storage) (reads saves : List String) : Prop where
  subset : saves ⊆ reads
  distinct : (reads.map s.target).Nodup
  delivers : ∀ path ∈ reads, s.Delivers path
  loads : ∀ saved : List (String × ByteArray), (∀ entry ∈ saved, entry.1 ∈ saves) →
    ∀ path ∈ reads, ∀ limit, ∃ answer, (s.saveAll saved).load path limit = .ok answer
  accepts : ∀ saved : List (String × ByteArray), (∀ entry ∈ saved, entry.1 ∈ saves) →
    ∀ path ∈ saves, ∀ bytes, ((s.saveAll saved).save path bytes).1 = .ok ()

namespace Accepts

variable {s : Storage} {reads saves : List String}

theorem save_fst (h : s.Accepts reads saves) {path : String} (hpath : path ∈ saves)
    (bytes : ByteArray) : (s.save path bytes).1 = .ok () :=
  h.accepts [] (by simp) path hpath bytes

theorem target_inj (h : s.Accepts reads saves) {path other : String} (hpath : path ∈ reads)
    (hother : other ∈ reads) (heq : s.target path = s.target other) : path = other :=
  List.inj_on_of_nodup_map h.distinct hpath hother heq

/-- The saved file is at its path, and at the other paths nothing has changed. -/
theorem contents_save (h : s.Accepts reads saves) {path other : String} (hpath : path ∈ saves)
    (hother : other ∈ reads) (bytes : ByteArray) :
    (s.save path bytes).2.contents other =
      if other = path then some bytes else s.contents other := by
  rw [Storage.contents_save (h.save_fst hpath bytes)]
  by_cases heq : other = path
  · rw [if_pos heq, if_pos (by rw [heq])]
  · rw [if_neg heq, if_neg fun htarget => heq (h.target_inj hother (h.subset hpath) htarget)]

/-- After a save the storage goes on to accept everything. -/
theorem save (h : s.Accepts reads saves) {path : String} (hpath : path ∈ saves)
    (bytes : ByteArray) : (s.save path bytes).2.Accepts reads saves := by
  have hok := h.save_fst hpath bytes
  have htarget := target_of_medium (s.medium_save path bytes)
  -- what is saved later on comes after this save
  have hloads : ∀ saved : List (String × ByteArray), (∀ entry ∈ saved, entry.1 ∈ saves) →
      ∀ entry ∈ (path, bytes) :: saved, entry.1 ∈ saves := by
    intro saved hsaved entry hentry
    rcases List.mem_cons.1 hentry with rfl | hentry
    · exact hpath
    · exact hsaved entry hentry
  refine ⟨h.subset, ?_, ?_, ?_, ?_⟩
  · rw [show (s.save path bytes).2.target = s.target from funext htarget]
    exact h.distinct
  · intro other hother
    refine delivers_of_loads (h.loads [(path, bytes)] (hloads [] (by simp)) other hother) ?_
    intro home hmedium
    have hmedium' : s.medium = .tree home := (s.medium_save path bytes).symm.trans hmedium
    rw [h.contents_save hpath hother, htarget]
    -- a file that was there or has just been saved can be found now
    rcases (h.delivers other hother).find_or_nothing hmedium' with hnothing | hfind
    · by_cases heq : other = path
      · exact .inr (by rw [heq]; exact find_save_self hmedium' hok)
      · rw [if_neg heq]
        exact .inl hnothing
    · exact .inr ((extends_save hmedium' path bytes).find hfind)
  · exact fun saved hsaved => h.loads _ (hloads saved hsaved)
  · exact fun saved hsaved => h.accepts _ (hloads saved hsaved)

theorem load (h : s.Accepts reads saves) {path : String} (hpath : path ∈ reads) (limit : Nat) :
    s.load path limit = .ok ((s.contents path).map (·.extract 0 limit)) :=
  h.delivers path hpath limit

end Accepts

/-- A save is accepted if its folders are there and there is a place for the file. -/
theorem save_of_place {s : Storage} {path : String} {loc : Location}
    (hfolders : s.makeFolders path = (.ok (), s)) (hplace : s.place path = .ok loc)
    (bytes : ByteArray) : (s.save path bytes).1 = .ok () := by
  have hwrite : s.write path bytes = (.ok (), s.put loc bytes) := by
    unfold write
    rw [hplace]
    rfl
  unfold save writeDeep
  rw [hfolders]
  dsimp only
  rw [hwrite]

theorem save_table {s : Storage} {unreadable unwritable : List String} {path : String}
    (hmedium : s.medium = .table unreadable unwritable) (hpath : path ∉ unwritable)
    (bytes : ByteArray) : (s.save path bytes).1 = .ok () := by
  have hfolders : s.makeFolders path = (.ok (), s) := by
    unfold makeFolders
    rw [hmedium]
  have hplace : s.place path = .ok [path] := by
    unfold place
    rw [hmedium]
    exact if_neg (by simpa using hpath)
  exact save_of_place hfolders hplace bytes

theorem medium_saveAll (s : Storage) (saved : List (String × ByteArray)) :
    (s.saveAll saved).medium = s.medium := by
  induction saved generalizing s with
  | nil => rfl
  | cons entry rest ih => exact (ih _).trans (s.medium_save entry.1 entry.2)

/-- A table accepts everything at the paths that it does not refuse. -/
theorem accepts_table {s : Storage} {unreadable unwritable reads saves : List String}
    (hmedium : s.medium = .table unreadable unwritable) (hsubset : saves ⊆ reads)
    (hdistinct : reads.Nodup) (hreadable : ∀ path ∈ reads, path ∉ unreadable)
    (hwritable : ∀ path ∈ saves, path ∉ unwritable) : s.Accepts reads saves := by
  have hmedia : ∀ saved, (s.saveAll saved).medium = .table unreadable unwritable :=
    fun saved => (s.medium_saveAll saved).trans hmedium
  refine ⟨hsubset, ?_, ?_, ?_, ?_⟩
  · refine hdistinct.map fun path other heq => ?_
    unfold target at heq
    rw [hmedium] at heq
    exact (List.cons.inj heq).1
  · intro path hpath limit
    rw [load_table hmedium, if_neg (by simpa using hreadable path hpath)]
  · intro saved _ path hpath limit
    exact ⟨_, (load_table (hmedia saved) path limit).trans
      (if_neg (by simpa using hreadable path hpath))⟩
  · exact fun saved _ path hpath bytes =>
      save_table (hmedia saved) (hwritable path hpath) bytes

end DotMatrix.Storage
