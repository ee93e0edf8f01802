import DotMatrix.Storage.Tree
import Mathlib.Data.List.TakeWhile

/-!
# Paths that name a file

A path whose last segment is a name is a folder part and the name (`Names`). Its extension is
replaced behind the stem of the name (`withExtension_eq`), unless the stem is a single dot: then
what is left without the old extension names no file, and nothing is put behind it. The name leads
from where the folder part leads to, also when a folder is put in front of it (`names_join`).
-/

namespace DotMatrix

namespace Path

/-! ## Segments -/

theorem split_eq_splitOn (path : List Char) : split path = path.splitOn '/' := by
  induction path with
  | nil => rfl
  | cons c rest ih =>
    rw [split, ih, List.splitOn_cons_eq_if_modifyHead]
    cases hrest : rest.splitOn '/' with
    | nil => exact absurd hrest (List.splitOn_ne_nil '/' rest)
    | cons segment more => simp

theorem split_ne_nil (path : List Char) : split path ≠ [] := by
  rw [split_eq_splitOn]
  exact List.splitOn_ne_nil '/' path

/-- What is put together from segments is taken apart into them. -/
theorem split_unsplit {segments : List (List Char)} (hslash : ∀ s ∈ segments, '/' ∉ s)
    (hne : segments ≠ []) : split (unsplit segments) = segments := by
  rw [split_eq_splitOn]
  exact List.splitOn_intercalate '/' hslash hne

theorem split_unsplit_concat {folder : List (List Char)} {last : List Char}
    (hfolder : ∀ s ∈ folder, '/' ∉ s) (hlast : '/' ∉ last) :
    split (unsplit (folder ++ [last])) = folder ++ [last] := by
  refine split_unsplit (fun s hs => ?_) (by simp)
  rcases List.mem_append.1 hs with hs | hs
  · exact hfolder s hs
  · rw [List.mem_singleton.1 hs]
    exact hlast

theorem slash_not_mem_of_mem_split {path segment : List Char} (h : segment ∈ split path) :
    '/' ∉ segment := by
  induction path generalizing segment with
  | nil =>
    rw [List.mem_singleton.1 h]
    exact List.not_mem_nil
  | cons c rest ih =>
    rw [split] at h
    by_cases hc : c = '/'
    · rw [if_pos hc] at h
      rcases List.mem_cons.1 h with rfl | h
      · exact List.not_mem_nil
      · exact ih h
    · rw [if_neg hc] at h
      have hcons : ∀ before, '/' ∉ before → '/' ∉ c :: before := fun before hbefore hmem =>
        (List.mem_cons.1 hmem).elim (fun heq => hc heq.symm) hbefore
      cases hrest : split rest with
      | nil =>
        rw [hrest] at h
        rw [List.mem_singleton.1 h]
        exact hcons [] List.not_mem_nil
      | cons first more =>
        rw [hrest] at h ih
        rcases List.mem_cons.1 h with rfl | h
        · exact hcons first (ih List.mem_cons_self)
        · exact ih (List.mem_cons_of_mem _ h)

theorem mem_of_mem_trim {segments : List (List Char)} {segment : List Char}
    (h : segment ∈ trim segments) : segment ∈ segments := by
  cases segments with
  | nil => exact h
  | cons first rest =>
    unfold trim at h
    dsimp only at h
    split at h
    · cases h
    · rcases List.mem_cons.1 h with rfl | h
      · exact List.mem_cons_self
      · exact List.mem_cons_of_mem _
          (List.mem_reverse.1 ((List.dropWhile_suffix _).mem (List.mem_reverse.1 h)))

theorem slash_not_mem_of_splitName? {path name : List Char} {folder : List (List Char)}
    (h : splitName? path = some (folder, name)) : (∀ s ∈ folder, '/' ∉ s) ∧ '/' ∉ name := by
  unfold splitName? at h
  dsimp only at h
  split at h
  · cases h
  · rename_i last hlast
    split at h
    · cases h
    · obtain ⟨rfl, rfl⟩ := Prod.mk.inj (Option.some.inj h)
      exact ⟨fun s hs => slash_not_mem_of_mem_split
          (mem_of_mem_trim ((List.dropLast_sublist _).mem hs)),
        slash_not_mem_of_mem_split (mem_of_mem_trim (List.mem_of_getLast? hlast))⟩

theorem mem_of_mem_splitExtension {name : List Char} {c : Char} (h : c ∈ (splitExtension name).1) :
    c ∈ name := by
  unfold splitExtension at h
  dsimp only at h
  split at h
  · exact h
  · exact h
  · rename_i dot stem hdrop
    have hmem : c ∈ name.reverse.drop (name.reverse.takeWhile (· ≠ '.')).length := by
      rw [hdrop]
      exact List.mem_cons_of_mem _ (List.mem_reverse.1 h)
    exact List.mem_reverse.1 (List.mem_of_mem_drop hmem)

theorem unsplit_split (path : List Char) : unsplit (split path) = path := by
  rw [split_eq_splitOn]
  exact List.intercalate_splitOn '/'

/-- Every segment but the last is followed by a slash. -/
theorem unsplit_concat (segments : List (List Char)) (last : List Char) :
    unsplit (segments ++ [last]) = (segments.flatMap fun s => s ++ ['/']) ++ last := by
  unfold unsplit
  induction segments with
  | nil => exact List.intercalate_singleton
  | cons first rest ih =>
    have hcons : ['/'].intercalate (first :: (rest ++ [last])) =
        first ++ ['/'] ++ ['/'].intercalate (rest ++ [last]) := by
      cases rest <;> exact List.intercalate_cons_cons
    rw [List.cons_append, hcons, ih, List.flatMap_cons, List.append_assoc, List.append_assoc,
      List.append_assoc]

theorem split_concat (path : List Char) {last : List Char} (h : '/' ∉ last) :
    split (path ++ '/' :: last) = split path ++ [last] := by
  have hjoin : path ++ '/' :: last = unsplit (split path ++ [last]) := by
    obtain ⟨front, final, hfront⟩ : ∃ front final, split path = front ++ [final] :=
      ⟨_, _, (List.dropLast_concat_getLast (split_ne_nil path)).symm⟩
    have hpath := unsplit_split path
    rw [hfront, unsplit_concat] at hpath
    rw [hfront, unsplit_concat, List.flatMap_append, ← hpath]
    simp
  rw [hjoin]
  exact split_unsplit_concat (fun s hs => slash_not_mem_of_mem_split hs) h

theorem trim_concat (segments : List (List Char)) {name : List Char} (hne : name ≠ [])
    (hdot : name ≠ ['.']) : trim (segments ++ [name]) = segments ++ [name] := by
  cases segments with
  | nil => simp [trim, hne]
  | cons first rest => simp [trim, hne, hdot]

/-! ## Stems and extensions -/

theorem splitExtension_of_dot {stem extension : List Char} (hstem : stem ≠ [])
    (hdot : '.' ∉ extension) :
    splitExtension (stem ++ '.' :: extension) = (stem, some extension) := by
  have hreverse : (stem ++ '.' :: extension).reverse =
      extension.reverse ++ '.' :: stem.reverse := by simp
  have hafter : (extension.reverse ++ '.' :: stem.reverse).takeWhile (· ≠ '.') =
      extension.reverse := by
    rw [List.takeWhile_append_of_pos]
    · simp
    · intro c hc
      simp only [decide_eq_true_eq]
      rintro rfl
      exact hdot (List.mem_reverse.1 hc)
  unfold splitExtension
  dsimp only
  rw [hreverse, hafter, List.drop_left]
  cases hrest : stem.reverse with
  | nil => exact absurd (List.reverse_eq_nil_iff.1 hrest) hstem
  | cons c rest =>
    dsimp only
    rw [← hrest, List.reverse_reverse, List.reverse_reverse]

/-- A name is its stem, or its stem and its extension with a dot in between. -/
theorem splitExtension_cases (name : List Char) :
    splitExtension name = (name, none) ∨
      ∃ stem extension, stem ≠ [] ∧ '.' ∉ extension ∧ name = stem ++ '.' :: extension := by
  have hjoin := List.prefix_iff_eq_append.1 (name.reverse.takeWhile_prefix (· ≠ '.'))
  have hafter : ∀ c ∈ name.reverse.takeWhile (· ≠ '.'), (c ≠ '.') := fun c hc => by
    simpa using List.mem_takeWhile_imp hc
  unfold splitExtension
  dsimp only
  generalize hlast : name.reverse.takeWhile (· ≠ '.') = after at *
  split
  · exact .inl rfl
  · exact .inl rfl
  · rename_i c stem hstem hrest
    rw [hrest] at hjoin
    -- what the search for a dot stopped at is one
    have hdot : c = '.' := by
      rw [← hjoin, List.takeWhile_append_of_pos (by simpa using hafter)] at hlast
      by_contra hc
      rw [List.takeWhile_cons_of_pos (by simpa using hc)] at hlast
      simpa using congrArg List.length hlast
    refine .inr ⟨stem.reverse, after.reverse, ?_, ?_, ?_⟩
    · exact fun hnil => hstem (List.reverse_eq_nil_iff.1 hnil)
    · exact fun hmem => hafter '.' (List.mem_reverse.1 hmem) rfl
    · rw [← List.reverse_reverse name, ← hjoin, hdot]
      simp

/-- A name with an extension is put together from its stem and that extension. -/
theorem snd_splitExtension_eq_some_iff {name extension : List Char} :
    (splitExtension name).2 = some extension ↔
      (splitExtension name).1 ++ '.' :: extension = name := by
  rcases splitExtension_cases name with hplain | ⟨stem, old, hne, hold, rfl⟩
  · rw [hplain]
    refine ⟨fun h => (by cases h), fun h => ?_⟩
    simpa using congrArg List.length h
  · rw [splitExtension_of_dot hne hold]
    simp [eq_comm]

/-! ## Paths that end in a name -/

/-- The file name without its extension. -/
def stem? (path : String) : Option String :=
  (splitName? path.toList).map fun (_, name) => String.ofList (splitExtension name).1

/-- What follows the last dot of the file name, unless the name starts with that dot. -/
def extension? (path : String) : Option String :=
  (splitName? path.toList).bind fun (_, name) => (splitExtension name).2.map String.ofList

/-- The path of a file with a given stem and extension in a folder. -/
def beside (folder : List (List Char)) (stem : List Char) (extension : String) : String :=
  String.ofList (unsplit (folder ++ [stem ++ '.' :: extension.toList]))

/-- The path is a folder part and a name behind it. -/
structure Names (path : List Char) (folder : List (List Char)) (name : List Char) : Prop where
  path : path = unsplit (folder ++ [name])
  folder : ∀ s ∈ folder, '/' ∉ s
  slash : '/' ∉ name
  ne_nil : name ≠ []
  ne_dot : name ≠ ['.']
  ne_dots : name ≠ ['.', '.']

namespace Names

variable {path : List Char} {folder : List (List Char)} {name : List Char}

theorem split_eq (h : Names path folder name) : split path = folder ++ [name] := by
  rw [h.path]
  exact split_unsplit_concat h.folder h.slash

theorem splitName?_eq (h : Names path folder name) : splitName? path = some (folder, name) := by
  unfold splitName?
  dsimp only
  rw [h.split_eq, trim_concat folder h.ne_nil h.ne_dot, List.getLast?_concat, List.dropLast_concat]
  exact if_neg (by simp [h.ne_nil, h.ne_dot, h.ne_dots])

/-- The name leads neither to its own folder nor out of it. -/
theorem proper (h : Names path folder name) :
    String.ofList name ≠ "." ∧ String.ofList name ≠ ".." := by
  have hne : ∀ dots : List Char, name ≠ dots → String.ofList name ≠ String.ofList dots :=
    fun dots hdots heq => hdots (String.ofList_injective heq)
  exact ⟨hne ['.'] h.ne_dot, hne ['.', '.'] h.ne_dots⟩

theorem fileName?_eq {path : String} (h : Names path.toList folder name) :
    fileName? path = some (String.ofList name) := by
  unfold fileName?
  rw [h.splitName?_eq]
  rfl

theorem stem?_eq {path : String} (h : Names path.toList folder name) :
    stem? path = some (String.ofList (splitExtension name).1) := by
  unfold stem?
  rw [h.splitName?_eq]
  rfl

theorem stem?_eq_dot_iff {path : String} (h : Names path.toList folder name) :
    stem? path = some "." ↔ (splitExtension name).1 = ['.'] := by
  rw [h.stem?_eq, Option.some_inj]
  exact ⟨fun heq => String.ofList_injective heq, fun heq => by rw [heq]⟩

theorem extension?_eq_some_iff {path extension : String} (h : Names path.toList folder name) :
    extension? path = some extension ↔
      (splitExtension name).1 ++ '.' :: extension.toList = name := by
  have hextension : extension? path = (splitExtension name).2.map String.ofList := by
    unfold extension?
    rw [h.splitName?_eq]
    rfl
  rw [← snd_splitExtension_eq_some_iff, hextension, Option.map_eq_some_iff]
  refine ⟨fun ⟨chars, hsome, hchars⟩ => ?_, fun hsome => ⟨_, hsome, String.ofList_toList⟩⟩
  rw [hsome, ← hchars, String.toList_ofList]

/-- The path without the characters of its extension. -/
theorem take_eq {stem extension : List Char} (h : Names path folder (stem ++ '.' :: extension)) :
    path.take (path.length - extension.length) = unsplit (folder ++ [stem ++ ['.']]) := by
  have hpath : path = unsplit (folder ++ [stem ++ ['.']]) ++ extension := by
    rw [h.path, unsplit_concat, unsplit_concat]
    simp
  have hlength : path.length - extension.length =
      (unsplit (folder ++ [stem ++ ['.']])).length := by
    rw [hpath, List.length_append, Nat.add_sub_cancel]
  rw [hlength]
  exact (congrArg _ hpath).trans List.take_left

end Names

section Extension

variable {path : String} {folder : List (List Char)} {name : List Char}

/-- A new extension goes behind the stem of the name. -/
theorem withExtension_eq (h : Names path.toList folder name)
    (hstem : (splitExtension name).1 ≠ ['.']) (extension : String) :
    withExtension path extension = beside folder (splitExtension name).1 extension := by
  unfold withExtension
  dsimp only
  rw [h.splitName?_eq]
  dsimp only
  rcases splitExtension_cases name with hplain | ⟨stem, old, hne, hold, rfl⟩
  · rw [hplain]
    dsimp only
    rw [setExtension, h.splitName?_eq]
    dsimp only
    rw [hplain]
    rfl
  · rw [splitExtension_of_dot hne hold] at hstem ⊢
    -- what is left is the stem and its dot, which is a name of its own
    have hcut : Names (unsplit (folder ++ [stem ++ ['.']])) folder (stem ++ ['.']) := by
      refine ⟨rfl, h.folder, fun hmem => h.slash ?_, by simp, ?_, ?_⟩
      · simp only [List.mem_append, List.mem_cons] at hmem ⊢
        exact hmem.imp_right fun hdot => .inl (hdot.resolve_right List.not_mem_nil)
      · exact fun heq => hne (by simpa using heq)
      · exact fun heq =>
          hstem (List.append_cancel_right (show stem ++ ['.'] = ['.'] ++ ['.'] from heq))
    dsimp only
    rw [h.take_eq, setExtension, hcut.splitName?_eq]
    dsimp only
    rw [splitExtension_of_dot hne List.not_mem_nil]
    rfl

/-- A name with a dot for a stem is left with two dots, which are no name. -/
theorem withExtension_of_dot (h : Names path.toList folder name)
    (hstem : (splitExtension name).1 = ['.']) (extension : String) :
    withExtension path extension = String.ofList (unsplit (folder ++ [['.', '.']])) := by
  rcases splitExtension_cases name with hplain | ⟨stem, old, hne, hold, rfl⟩
  · rw [hplain] at hstem
    exact absurd hstem h.ne_dot
  · rw [splitExtension_of_dot hne hold] at hstem
    obtain rfl : stem = ['.'] := hstem
    have hnone : splitName? (unsplit (folder ++ [['.', '.']])) = none := by
      unfold splitName?
      dsimp only
      rw [split_unsplit_concat h.folder (by decide), trim_concat folder (by decide) (by decide),
        List.getLast?_concat]
      rfl
    unfold withExtension
    dsimp only
    rw [h.splitName?_eq]
    dsimp only
    rw [splitExtension_of_dot hne hold]
    dsimp only
    rw [h.take_eq]
    show String.ofList (setExtension (unsplit (folder ++ [['.', '.']])) _) = _
    rw [setExtension, hnone]

end Extension

/-! ## The folders of a path -/

/-- What is trimmed off says nothing. -/
theorem trim_append (segments : List (List Char)) :
    ∃ blank, segments = trim segments ++ blank ∧ ∀ s ∈ blank, s = [] ∨ s = ['.'] := by
  cases segments with
  | nil => exact ⟨[], rfl, by simp⟩
  | cons first rest =>
    have hblank : ∀ s ∈ (rest.reverse.takeWhile fun s => s = [] || s = ['.']).reverse,
        s = [] ∨ s = ['.'] := fun s hs => by
      simpa using List.mem_takeWhile_imp (List.mem_reverse.1 hs)
    have hrest : rest = (rest.reverse.dropWhile fun s => s = [] || s = ['.']).reverse ++
        (rest.reverse.takeWhile fun s => s = [] || s = ['.']).reverse := by
      rw [← List.reverse_append, List.takeWhile_append_dropWhile, List.reverse_reverse]
    unfold trim
    dsimp only
    split
    · rename_i hnothing
      simp only [Bool.and_eq_true, decide_eq_true_eq] at hnothing
      obtain ⟨rfl, hnil⟩ := hnothing
      rw [hnil, List.nil_append] at hrest
      refine ⟨[] :: rest, rfl, fun s hs => ?_⟩
      rcases List.mem_cons.1 hs with rfl | hs
      · exact .inl rfl
      · rw [hrest] at hs
        exact hblank s hs
    · exact ⟨_, congrArg (first :: ·) hrest, hblank⟩

theorem trim_ne_blank (segments : List (List Char)) : trim segments ≠ [[]] := by
  cases segments with
  | nil => exact (List.cons_ne_nil [] []).symm
  | cons first rest =>
    unfold trim
    dsimp only
    split
    · exact (List.cons_ne_nil [] []).symm
    · rename_i hsays
      intro heq
      obtain ⟨rfl, hrest⟩ := List.cons.inj heq
      rw [hrest] at hsays
      exact hsays rfl

/-- What is left of a path without its name. -/
theorem parent?_of_names {path : String} {folder : List (List Char)} {name : List Char}
    (h : Names path.toList folder name) :
    parent? path = some (if trim folder = []
      then if (folder ++ [name]).head? = some [] then "/" else ""
      else String.ofList (unsplit (trim folder))) := by
  unfold parent?
  dsimp only
  rw [h.split_eq, trim_concat folder h.ne_nil h.ne_dot, List.dropLast_concat]
  cases folder with
  | nil => rfl
  | cons first rest => cases htrim : trim (first :: rest) <;> rfl

/-- A path is in no folder, or first of all in the one that its folder part says. -/
theorem folders_of_names {path : String} {folder : List (List Char)} {name : List Char}
    (h : Names path.toList folder name) :
    folders path = [] ∨ trim folder ≠ [] ∧
      ∃ outer, folders path = String.ofList (unsplit (trim folder)) :: outer := by
  obtain ⟨n, hlength⟩ : ∃ n, path.length = n + 1 := by
    refine Nat.exists_eq_succ_of_ne_zero fun hzero => ?_
    have hempty : path.toList = [] := List.length_eq_zero_iff.1 (String.length_toList.trans hzero)
    rw [h.path, unsplit_concat, List.append_eq_nil_iff] at hempty
    exact h.ne_nil hempty.2
  unfold folders
  rw [hlength, foldersUpTo, parent?_of_names h]
  by_cases htrim : trim folder = []
  · have hnone :
        (parent? (if (folder ++ [name]).head? = some [] then "/" else "")).isNone = true := by
      split <;> decide
    rw [if_pos htrim]
    exact .inl (if_pos hnone)
  · rw [if_neg htrim]
    dsimp only
    split
    · exact .inl rfl
    · exact .inr ⟨htrim, _, rfl⟩

end Path

/-! ## Where names lead -/

namespace Storage

/-- Where a folder part leads to. -/
def lead (here : Location) (folder : List (List Char)) : Location :=
  ((folder.filter (· ≠ [])).map String.ofList).foldl Location.enter here

theorem segments_of_split {path : String} {folder : List (List Char)} {last : List Char}
    (hsplit : Path.split path.toList = folder ++ [last]) (hne : last ≠ []) :
    segments path = (folder.filter (· ≠ [])).map String.ofList ++ [String.ofList last] := by
  unfold segments
  rw [hsplit, List.filter_append, List.map_append]
  simp [hne]

section Names

variable {path : String} {folder : List (List Char)} {name : List Char}
  (h : Path.Names path.toList folder name)
include h

theorem segments_of_names :
    segments path = (folder.filter (· ≠ [])).map String.ofList ++ [String.ofList name] :=
  segments_of_split h.split_eq h.ne_nil

/-- A name leads one step further than the folder part. -/
theorem follow_of_names (here : Location) :
    follow here path = lead here folder ++ [String.ofList name] := by
  unfold follow
  rw [segments_of_names h, List.foldl_append]
  show Location.enter _ _ = _
  unfold Location.enter
  rw [if_neg h.proper.1, if_neg h.proper.2]
  rfl

end Names

/-- Where a path starts is seen from its folder part. -/
theorem start_of_names {path path' : String} {folder : List (List Char)} {name name' : List Char}
    (h : Path.Names path.toList folder name) (h' : Path.Names path'.toList folder name')
    (home : Location) : start home path = start home path' := by
  have hhead : ∀ {name : List Char}, '/' ∉ name → name.head? ≠ some '/' := fun hslash hhead =>
    hslash (List.mem_of_mem_head? hhead)
  unfold start
  rw [h.path, h'.path, Path.unsplit_concat, Path.unsplit_concat]
  cases folder with
  | nil => simp [hhead h.slash, hhead h'.slash]
  | cons first rest => cases first <;> simp

/-- A name that is put behind the path of a folder leads into that folder. -/
theorem names_join {path : List Char} {before : List (List Char)} {name : List Char}
    (h : Path.Names path before name) (folder : String) :
    ∃ segments, Path.Names (Path.join folder (String.ofList name)).toList segments name ∧
      ∀ home, lead (start home (Path.join folder (String.ofList name))) segments =
        follow (start home folder) folder := by
  have hhead : name.head? ≠ some '/' := fun hhead => h.slash (List.mem_of_mem_head? hhead)
  -- a slash is put in between, unless there is one
  have hslash : ∀ text : List Char, Path.Names (text ++ '/' :: name) (Path.split text) name :=
    fun text => {
      path := by
        rw [← Path.split_concat text h.slash, Path.unsplit_split]
      folder := fun s hs => Path.slash_not_mem_of_mem_split hs
      slash := h.slash
      ne_nil := h.ne_nil
      ne_dot := h.ne_dot
      ne_dots := h.ne_dots }
  unfold Path.join
  rw [String.toList_ofList, if_neg hhead]
  split
  · rename_i hlast
    have hempty : folder.toList = [] := List.getLast?_eq_none_iff.1 hlast
    refine ⟨[], ⟨?_, by simp, h.slash, h.ne_nil, h.ne_dot, h.ne_dots⟩, fun home => ?_⟩
    · rw [String.toList_ofList]
      exact List.intercalate_singleton.symm
    · unfold start follow segments
      rw [String.toList_ofList, if_neg hhead, hempty]
      rfl
  · rename_i hlast
    obtain ⟨text, htext⟩ := List.getLast?_eq_some_iff.1 hlast
    have hjoin : (folder ++ String.ofList name).toList = text ++ '/' :: name := by
      rw [String.toList_append, String.toList_ofList, htext]
      simp
    refine ⟨Path.split text, hjoin ▸ hslash text, fun home => ?_⟩
    unfold lead start follow segments
    rw [hjoin, htext, Path.split_concat text List.not_mem_nil, List.filter_append]
    cases text <;> simp
  · rename_i hlast
    have hjoin : (folder ++ "/" ++ String.ofList name).toList = folder.toList ++ '/' :: name := by
      rw [String.toList_append, String.toList_append, String.toList_ofList]
      simp
    refine ⟨Path.split folder.toList, hjoin ▸ hslash folder.toList, fun home => ?_⟩
    unfold lead start follow segments
    rw [hjoin]
    cases hfolder : folder.toList with
    | nil =>
      rw [hfolder] at hlast
      cases hlast
    | cons c rest => simp

end Storage

end DotMatrix
