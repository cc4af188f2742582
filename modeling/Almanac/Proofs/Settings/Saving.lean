import Mathlib
import Almanac.Settings.Sources
import Almanac.Proofs.Files.Disk
import Almanac.Proofs.Settings.Document
import Almanac.Proofs.Settings.Layers

/-!
# Saving settings

Settings are written to a draft beside their file and moved from there, so a file that
is there stays as it is until the new one is complete.  Everything that can come of it is
a case of `Replaced`; that a save leaves either the new settings or the old file is read
off these cases (`save_is_all_or_nothing`).  A path that goes back through a missing folder
is the exception: what is made on its way stays there when the save fails, and the path may
lead to it from then on (`save_leaves_directory`).
-/

namespace Almanac

/-! ## The folder and the name -/

namespace Path

variable {path folder : Path} {name : String}

theorem split?_eq_some (h : path.split? = some (folder, name)) :
    folder.absolute = path.absolute ∧ path.names.filter isStep = folder.names ++ [name] ∧
      name ≠ ".." := by
  rw [split?] at h
  split at h
  · contradiction
  · contradiction
  · rename_i last front hup hsteps
    obtain ⟨rfl, rfl⟩ := Prod.mk.inj (Option.some.inj h)
    refine ⟨rfl, ?_, hup⟩
    rw [← List.reverse_reverse (path.names.filter isStep), hsteps, List.reverse_cons]

theorem not_mem_names_of_split (h : path.split? = some (folder, name))
    (hforth : ".." ∉ folder.names) : ".." ∉ path.names := by
  obtain ⟨-, hnames, hup⟩ := split?_eq_some h
  intro hmem
  have hstep : ".." ∈ path.names.filter isStep := List.mem_filter.mpr ⟨hmem, by decide⟩
  rw [hnames, List.mem_append, List.mem_singleton] at hstep
  exact hstep.elim hforth (hup ·.symm)

end Path

namespace Disk

variable {d : Disk} {path folder : Path} {name : String} {q : Place}

theorem spot_child (hstep : Path.isStep name = true) (hup : name ≠ "..") (folder : Path) :
    d.spot (folder.child name) = name :: d.spot folder := by
  rw [spot, spot, Path.child, Place.follow, Place.follow, List.foldl_append, List.foldl_cons,
    List.foldl_nil, Place.step_name hstep hup]
  rfl

theorem spot_of_split (h : path.split? = some (folder, name)) :
    d.spot path = name :: d.spot folder := by
  obtain ⟨habsolute, hnames, hup⟩ := Path.split?_eq_some h
  have hstep : Path.isStep name = true := by
    have hmem : name ∈ path.names.filter Path.isStep := by
      rw [hnames]
      exact List.mem_append_right _ List.mem_cons_self
    exact (List.mem_filter.mp hmem).2
  rw [← spot_child hstep hup, spot, spot, ← Place.follow_filter, hnames, start, start, ← habsolute]
  rfl

theorem folder_of_locate (h : path.split? = some (folder, name)) (hl : d.locate path = .ok q) :
    ∃ r, d.walk (d.start folder) folder.names = .ok r ∧ d.node? r = some .directory := by
  obtain ⟨habsolute, hnames, -⟩ := Path.split?_eq_some h
  have hsteps := walk_filter (locate_iff.mp hl).2.2
  rw [hnames, start, ← habsolute] at hsteps
  obtain ⟨r, hwalk, hr, -⟩ := walk_concat hsteps
  exact ⟨r, hwalk, hr⟩

end Disk

namespace Settings

variable {d d' : Disk} {path folder : Path} {name : String} {bytes : ByteArray}

/-! ## The draft -/

theorem length_draftName (name : String) :
    (draftName name).length = (Path.stem name).length + 9 := by
  rw [draftName, String.length_append]
  rfl

theorem draftName_ne_of_length {name' : String} (h : name'.length < 9) (name : String) :
    draftName name ≠ name' := by
  rintro rfl
  rw [length_draftName] at h
  omega

theorem isStep_draftName (name : String) : Path.isStep (draftName name) = true := by
  rw [Path.isStep, decide_eq_true_iff]
  exact ⟨draftName_ne_of_length (by decide) name, draftName_ne_of_length (by decide) name⟩

/-- What follows the last full stop of a name is without one, and a draft's name has one
more. -/
theorem draftName_ne (name : String) : draftName name ≠ name := by
  intro he
  have hlist : (Path.stem name).toList ++ ".toml.tmp".toList = name.toList := by
    rw [← String.toList_append, ← draftName, he]
  rw [Path.stem] at hlist
  split at hlist
  · rename_i c cs hstem
    have hname : name.toList =
        (c :: cs).reverse ++ '.' :: (name.toList.reverse.takeWhile (· ≠ '.')).reverse := by
      have hsplit := congrArg List.reverse
        (List.takeWhile_append_dropWhile (p := (· ≠ '.')) (l := name.toList.reverse))
      rw [hstem, List.reverse_append, List.reverse_cons, List.reverse_reverse,
        List.append_assoc] at hsplit
      exact hsplit.symm
    rw [hname, String.toList_ofList, List.append_cancel_left_eq] at hlist
    have hlast : '.' ∈ name.toList.reverse.takeWhile (· ≠ '.') := by
      rw [← List.mem_reverse, ← (List.cons.inj hlist).2]
      decide
    simpa using List.mem_takeWhile_imp hlast
  · have hlength := congrArg List.length hlist
    rw [List.length_append] at hlength
    have : ".toml.tmp".toList.length = 9 := rfl
    omega

/-- The draft is in the folder of the file, in a place of its own. -/
theorem draft_ne_target (h : path.split? = some (folder, name)) (d : Disk) :
    d.spot (folder.child (draftName name)) ≠ d.spot path := by
  have hup : draftName name ≠ ".." := draftName_ne_of_length (by decide) name
  rw [Disk.spot_child (isStep_draftName name) hup, Disk.spot_of_split h]
  exact fun he => draftName_ne name (List.cons.inj he).1

/-! ## What comes of it -/

/-- What can come of putting bytes into the file of a path, once the directories on the
way to it are made. -/
inductive Replaced (path : Path) (draft target : Place) (bytes : ByteArray) (made : Disk) :
    EStateM.Result FileFault Disk Unit → Prop
  /-- There is no draft. -/
  | undrafted (fault : FileFault) : Replaced path draft target bytes made (.error fault made)
  /-- The draft stays where it is. -/
  | unmoved (fault : FileFault) (hdraft : made.node? draft ≠ some .directory) :
    Replaced path draft target bytes made (.error fault (made.put draft (.file bytes)))
  | moved (hdraft : made.node? draft ≠ some .directory)
    (htarget : made.node? target ≠ some .directory)
    (hlocate : (made.put draft (.file bytes)).locate path = .ok target) :
    Replaced path draft target bytes made
      (.ok () (((made.put draft (.file bytes)).put target (.file bytes)).erase draft))

theorem replaceFile_eq (h : path.split? = some (folder, name)) (bytes : ByteArray) (d : Disk) :
    replaceFile path bytes d =
      match Disk.Action.createDirectories folder d with
      | .ok _ d =>
        match Disk.Action.write (folder.child (draftName name)) bytes d with
        | .ok _ d => Disk.Action.rename (folder.child (draftName name)) path d
        | .error fault d => .error fault d
      | .error fault d => .error fault d := by
  rw [replaceFile, h]
  simp only [bind, EStateM.bind]
  rcases Disk.Action.createDirectories folder d with ⟨_, made⟩ | ⟨fault, made⟩
  · simp only
    rcases Disk.Action.write (folder.child (draftName name)) bytes made with _ | _ <;> rfl
  · rfl

/-- **Every way in which a file can be replaced, or not.** -/
theorem replaced (h : path.split? = some (folder, name)) (bytes : ByteArray) (d : Disk) :
    Replaced path (d.spot (folder.child (draftName name))) (d.spot path) bytes
      (Disk.Action.madeFor folder d) (replaceFile path bytes d) := by
  have hmade := (Disk.Action.grown_madeFor folder d).within
  have hne := draft_ne_target h d
  rw [replaceFile_eq h]
  unfold Disk.Action.madeFor at hmade ⊢
  rcases hc : Disk.Action.createDirectories folder d with ⟨_, made⟩ | ⟨fault, made⟩
  swap
  · exact .undrafted fault
  rw [hc] at hmade
  simp only [Disk.Action.left] at hmade ⊢
  have hwrite := Disk.Action.write_cases (folder.child (draftName name)) bytes made
  rw [hmade.spot] at hwrite
  obtain ⟨-, fault, hw⟩ | ⟨⟨hlocate, hdraft⟩, hw⟩ := hwrite
  · rw [hw]
    exact .undrafted fault
  rw [hw]
  rw [hmade.spot] at hlocate hdraft
  simp only
  have hdrafted := Disk.within_put hdraft (.file bytes)
  have hrename := Disk.Action.rename_cases path (hdrafted.locate hlocate)
    (Disk.node?_put_self (Disk.ne_root hdraft) _)
  rw [hdrafted.spot, hmade.spot] at hrename
  obtain ⟨-, fault, hr⟩ | ⟨⟨hl, htarget⟩, hr⟩ := hrename hne
  · rw [hr]
    exact .unmoved fault hdraft
  · rw [hr]
    rw [hdrafted.spot, hmade.spot] at hl htarget
    rw [Disk.node?_put (Disk.ne_root hdraft), if_neg hne.symm] at htarget
    exact .moved hdraft htarget hl

theorem replaceFile_of_takes (h : path.split? = some (folder, name)) (hpath : d.Takes path)
    (hdraft : d.Takes (folder.child (draftName name))) (bytes : ByteArray) :
    ∃ d', replaceFile path bytes d = .ok () d' := by
  have hne := draft_ne_target h d
  rw [replaceFile_eq h, Disk.Action.createDirectories_of_child hdraft.locate]
  simp only
  obtain ⟨hno, -⟩ | ⟨-, hw⟩ :=
    Disk.Action.write_cases (folder.child (draftName name)) bytes d
  · exact absurd hdraft hno
  rw [hw]
  simp only
  have hdrafted := Disk.within_put hdraft.node (.file bytes)
  have hroot := Disk.ne_root hdraft.node
  have hrename := Disk.Action.rename_cases path (hdrafted.locate hdraft.locate)
    (Disk.node?_put_self hroot _)
  rw [hdrafted.spot] at hrename
  obtain ⟨hno, -⟩ | ⟨-, hr⟩ := hrename hne
  · refine absurd ⟨?_, ?_⟩ hno
    · rw [hdrafted.spot]
      exact hdrafted.locate hpath.locate
    · rw [hdrafted.spot, Disk.node?_put hroot, if_neg hne.symm]
      exact hpath.node
  · exact ⟨_, hr⟩

namespace Replaced

variable {draft target : Place} {made : Disk} {fault : FileFault}

/-- A file that is replaced holds what was put into it, and its draft is gone. -/
theorem of_ok (h : Replaced path draft target bytes made (.ok () d')) (hne : draft ≠ target) :
    d'.locate path = .ok target ∧ d'.node? target = some (.file bytes) ∧
      d'.node? draft = none ∧ made.SameFiles [target, draft] d' := by
  cases h with
  | moved hdraft htarget hlocate =>
      have hroot := Disk.ne_root hdraft
      have hroot' := Disk.ne_root htarget
      have hdraft' : ((made.put draft (.file bytes)).put target (.file bytes)).node? draft ≠
          some .directory := by
        rw [Disk.node?_put hroot', if_neg hne, Disk.node?_put_self hroot]
        exact nofun
      have htarget' : (made.put draft (.file bytes)).node? target ≠ some .directory := by
        rwa [Disk.node?_put hroot, if_neg hne.symm]
      have hdrafted := Disk.sameBut_put (d := made) hroot (.file bytes)
      have hput := Disk.sameBut_put (d := made.put draft (.file bytes)) hroot' (.file bytes)
      have hcleared := Disk.sameBut_erase
        (d := (made.put draft (.file bytes)).put target (.file bytes)) hroot
      have hwithin := (hput.within htarget').trans (hcleared.within hdraft')
      refine ⟨hwithin.locate hlocate, ?_, ?_, ?_⟩
      · rw [hcleared.node target hne.symm, Disk.node?_put_self hroot']
      · rw [Disk.node?_erase hroot, if_pos rfl]
      · exact ((hdrafted.sameFiles (by simp)).trans (hput.sameFiles (by simp))).trans
          (hcleared.sameFiles (by simp))

/-- Where a file is not replaced, nothing but its draft has changed. -/
theorem of_error (h : Replaced path draft target bytes made (.error fault d')) :
    made.Within d' ∧ made.SameBut draft d' := by
  cases h with
  | undrafted => exact ⟨.refl _, rfl, fun _ _ => rfl⟩
  | unmoved _ hdraft =>
      have hdrafted := Disk.sameBut_put (d := made) (Disk.ne_root hdraft) (.file bytes)
      exact ⟨hdrafted.within hdraft, hdrafted⟩

end Replaced

/-! ## Saving -/

variable {s : Settings}

theorem fromUTF8?_toUTF8 (s : String) : String.fromUTF8? s.toUTF8 = some s := by
  rw [String.toUTF8_eq_toByteArray, String.fromUTF8?, dif_pos s.isValidUTF8]
  rfl

theorem ofFile_of_fits (h : s.Fits) {files : Files} {file : String}
    (hfile : files file = .ok (String.ofList s.toToml).toUTF8) : ofFile files file = .ok s := by
  have hhas : files.has file = true := by rw [Files.has, hfile]
  have htext : files.text file = .ok (String.ofList s.toToml) := by
    simp only [Files.text, hfile, fromUTF8?_toUTF8]
  simp only [ofFile, hhas, htext, ofToml?_toToml h, if_true]

theorem ofFile_of_held? {file : String} (h : d'.held? (.ofText file) = d.held? (.ofText file)) :
    ofFile d'.files file = ofFile d.files file := by
  rcases hn : d.held? (.ofText file) with _ | n
  · rw [ofFile, ofFile, Disk.has_files, Disk.has_files, h, hn]
    rfl
  · apply ofFile_congr
    rw [Disk.files_of_held? d' file n (h.trans hn), Disk.files_of_held? d file n hn]

theorem save_of_not_fits (h : ¬s.Fits) (file : String) (d : Disk) :
    s.save file d = (.error (.settings .unwritable), d) := by
  rw [save, document_of_not_fits h]

theorem save_of_fits (h : s.Fits) (file : String) (d : Disk) :
    s.save file d =
      match replaceFile (.ofText file) (String.ofList s.toToml).toUTF8 d with
      | .ok _ d => (.ok (), d)
      | .error fault d => (.error (.file fault), d) := by
  have hdocument := document_of_fits h
  cases hr : replaceFile (.ofText file) (String.ofList s.toToml).toUTF8 d with
  | ok _ d' => simp only [save, hdocument, hr]
  | error fault d' => simp only [save, hdocument, hr]

theorem replaceFile_of_save {file : String} (h : s.save file d = (.ok (), d')) :
    s.Fits ∧ replaceFile (.ofText file) (String.ofList s.toToml).toUTF8 d = .ok () d' := by
  by_cases hfits : s.Fits
  · rw [save_of_fits hfits] at h
    split at h
    · rename_i hr
      rw [← (Prod.mk.inj h).2]
      exact ⟨hfits, hr⟩
    · cases (Prod.mk.inj h).1
  · rw [save_of_not_fits hfits] at h
    cases (Prod.mk.inj h).1

section Outcomes

variable {file : String}

theorem of_save_ok (h : (Path.ofText file).split? = some (folder, name))
    (hs : s.save file d = (.ok (), d')) :
    ofFile d'.files file = .ok s ∧ d'.node? (d.spot (folder.child (draftName name))) = none ∧
      d.SameFiles [d.spot (.ofText file), d.spot (folder.child (draftName name))] d' ∧
      ∀ p, p ∈ d'.filePlaces ↔ p = d.spot (.ofText file) ∨
        p ≠ d.spot (folder.child (draftName name)) ∧ p ∈ d.filePlaces := by
  obtain ⟨hfits, hr⟩ := replaceFile_of_save hs
  have hcases := replaced h (String.ofList s.toToml).toUTF8 d
  rw [hr] at hcases
  have hne := draft_ne_target h d
  obtain ⟨hlocate, htarget, hgone, hsame⟩ := hcases.of_ok hne
  replace hsame := ((Disk.Action.grown_madeFor folder d).sameFiles _).trans hsame
  refine ⟨ofFile_of_fits hfits (Disk.read_of_locate hlocate htarget), hgone, hsame, fun p => ?_⟩
  rw [Disk.mem_filePlaces, Disk.mem_filePlaces]
  rcases eq_or_ne p (d.spot (.ofText file)) with rfl | hp
  · exact iff_of_true ⟨_, htarget⟩ (.inl rfl)
  rcases eq_or_ne p (d.spot (folder.child (draftName name))) with rfl | hp'
  · rw [hgone]
    exact iff_of_false (nofun) (fun hor => hor.elim hne (·.1 rfl))
  · rw [exists_congr (hsame p (by simp [hp, hp']))]
    exact ⟨fun hfile => .inr ⟨hp', hfile⟩, fun hor => hor.elim (absurd · hp) (·.2)⟩

theorem save_of_takes (h : (Path.ofText file).split? = some (folder, name)) (hfits : s.Fits)
    (hpath : d.Takes (.ofText file)) (hdraft : d.Takes (folder.child (draftName name))) :
    ∃ d', s.save file d = (.ok (), d') := by
  obtain ⟨d', hr⟩ := replaceFile_of_takes h hpath hdraft (String.ofList s.toToml).toUTF8
  exact ⟨d', by rw [save_of_fits hfits, hr]⟩

variable {complaint : Complaint}

/-- A save that fails has changed nothing, or made directories and maybe a draft. -/
theorem left_of_save_error (h : (Path.ofText file).split? = some (folder, name))
    (hs : s.save file d = (.error complaint, d')) :
    d' = d ∨
      (Disk.Action.madeFor folder d).Within d' ∧
        (Disk.Action.madeFor folder d).SameBut (d.spot (folder.child (draftName name))) d' := by
  by_cases hfits : s.Fits
  · have hcases := replaced h (String.ofList s.toToml).toUTF8 d
    rw [save_of_fits hfits] at hs
    split at hs
    · cases (Prod.mk.inj hs).1
    · rename_i fault left hr
      rw [hr] at hcases
      rw [← (Prod.mk.inj hs).2]
      exact .inr hcases.of_error
  · rw [save_of_not_fits hfits] at hs
    exact .inl (Prod.mk.inj hs).2.symm

theorem sameFiles_of_save_error (h : (Path.ofText file).split? = some (folder, name))
    (hs : s.save file d = (.error complaint, d')) :
    d.SameFiles [d.spot (folder.child (draftName name))] d' := by
  obtain rfl | ⟨-, hbut⟩ := left_of_save_error h hs
  · exact fun _ _ _ => Iff.rfl
  · have hgrown := Disk.Action.grown_madeFor folder d
    exact (hgrown.sameFiles _).trans (hbut.sameFiles (List.mem_singleton_self _))

theorem within_of_save_error (h : (Path.ofText file).split? = some (folder, name))
    (hs : s.save file d = (.error complaint, d')) : d.Within d' := by
  obtain rfl | ⟨hwithin, -⟩ := left_of_save_error h hs
  · exact .refl _
  · exact (Disk.Action.grown_madeFor folder d).within.trans hwithin

/-- A save that fails leaves what there is at the file's place, if the path led somewhere or
never goes back: there was no directory to make then, or those made are nearer to the root. -/
theorem node?_of_save_error (h : (Path.ofText file).split? = some (folder, name))
    (hs : s.save file d = (.error complaint, d'))
    (hpath : (∃ p, d.locate (.ofText file) = .ok p) ∨ ".." ∉ folder.names) :
    d'.node? (d.spot (.ofText file)) = d.node? (d.spot (.ofText file)) := by
  obtain rfl | ⟨-, hbut⟩ := left_of_save_error h hs
  · rfl
  rw [hbut.node _ (draft_ne_target h d).symm]
  obtain ⟨p, hl⟩ | hforth := hpath
  · obtain ⟨q, hwalk, hq⟩ := Disk.folder_of_locate h hl
    rw [Disk.Action.madeFor_of_walk hwalk hq]
  · apply Disk.Action.node?_madeFor hforth
    rw [Disk.spot_of_split h]
    exact Nat.lt_succ_self _

/-- A save that fails leaves what is read at the path, if the path led somewhere: the
folder was there then, and no directory was made. -/
theorem files_of_save_error (h : (Path.ofText file).split? = some (folder, name))
    (hs : s.save file d = (.error complaint, d')) {p : Place}
    (hl : d.locate (.ofText file) = .ok p) : d'.files file = d.files file := by
  have hlocate := (within_of_save_error h hs).locate hl
  have hnode := node?_of_save_error h hs (.inl ⟨p, hl⟩)
  rw [← Disk.locate_eq hl] at hnode
  simp only [Disk.files, Disk.read, hl, hlocate, Disk.bytesAt, hnode]

/-- What a path leads to is as it was after a save that failed, on the same terms. -/
theorem held?_of_save_error (h : (Path.ofText file).split? = some (folder, name))
    (hs : s.save file d = (.error complaint, d'))
    (hpath : (∃ p, d.locate (.ofText file) = .ok p) ∨ d.IsTree ∧ ".." ∉ folder.names) :
    d'.held? (.ofText file) = d.held? (.ofText file) := by
  have hwithin := within_of_save_error h hs
  have hnode := node?_of_save_error h hs (hpath.imp_right And.right)
  obtain ⟨p, hl⟩ | ⟨htree, hforth⟩ := hpath
  · exact hwithin.held?_eq hl hnode
  · exact htree.held?_eq hwithin (Path.not_mem_names_of_split h hforth) hnode

end Outcomes

theorem fits_iff_le_maxValue :
    s.Fits ↔ ∀ n ∈ s.numbers, (n.toNat : Int) ≤ Int64.maxValue.toInt := by
  have hmax : Int64.maxValue.toInt = 2 ^ 63 - 1 := by decide
  have hsize : UInt64.size / 2 = 2 ^ 63 := by decide
  rw [fits_iff, hmax, hsize]
  refine forall₂_congr fun n _ => ?_
  omega

theorem isTree_replaceFile (hd : d.IsTree) (path : Path) (bytes : ByteArray) :
    (Disk.Action.left (replaceFile path bytes d)).IsTree := by
  rcases h : path.split? with _ | ⟨folder, name⟩
  · rw [replaceFile, h]
    exact hd
  rw [replaceFile_eq h]
  have hmade := Disk.Action.isTree_madeFor hd folder
  rw [Disk.Action.madeFor] at hmade
  rcases hc : Disk.Action.createDirectories folder d with ⟨_, made⟩ | ⟨fault, made⟩
  · replace hmade : made.IsTree := by rwa [hc] at hmade
    have hwritten := Disk.Action.isTree_write hmade (folder.child (draftName name)) bytes
    simp only
    rcases hw : Disk.Action.write (folder.child (draftName name)) bytes made with
      ⟨_, written⟩ | ⟨fault, written⟩
    · rw [hw] at hwritten
      exact Disk.Action.isTree_rename hwritten _ path
    · rwa [hw] at hwritten
  · rwa [hc] at hmade

/-- **A save keeps the disk a tree**, whatever comes of it. -/
theorem isTree_save (hd : d.IsTree) (s : Settings) (file : String) :
    (s.save file d).2.IsTree := by
  by_cases hfits : s.Fits
  · have htree := isTree_replaceFile hd (.ofText file) (String.ofList s.toToml).toUTF8
    rw [save_of_fits hfits]
    split
    · rename_i hr
      rwa [hr] at htree
    · rename_i hr
      rwa [hr] at htree
  · rw [save_of_not_fits hfits]
    exact hd

/-- **A save is all or nothing, and reads back.**  One that succeeds is read back, leaves no
draft and every other file as it was.  One that fails leaves every file but the draft; and
what the path leads to, if it led somewhere or does not go back in its folder.  Numbers that do
not fit change nothing, and all others are saved wherever the file and its draft can be put.
Whatever comes of a save, the disk stays a tree. -/
theorem save_is_all_or_nothing (s : Settings) (file : String) (d : Disk)
    (h : (Path.ofText file).split? = some (folder, name)) :
    let path := Path.ofText file
    let target := d.spot path
    let draft := d.spot (folder.child (draftName name))
    (∀ d', s.save file d = (.ok (), d') →
      ofFile d'.files file = .ok s ∧ d'.node? draft = none ∧ d.SameFiles [target, draft] d' ∧
        ∀ p, p ∈ d'.filePlaces ↔ p = target ∨ p ≠ draft ∧ p ∈ d.filePlaces) ∧
    (∀ complaint d', s.save file d = (.error complaint, d') →
      draft ≠ target ∧ d.SameFiles [draft] d' ∧
        (∀ p, d.locate path = .ok p → d'.files file = d.files file) ∧
        ((∃ p, d.locate path = .ok p) ∨ ".." ∉ folder.names →
          d'.node? target = d.node? target) ∧
        ((∃ p, d.locate path = .ok p) ∨ d.IsTree ∧ ".." ∉ folder.names →
          d'.held? path = d.held? path ∧ ofFile d'.files file = ofFile d.files file)) ∧
    ((∃ n ∈ s.numbers, Int64.maxValue.toInt < n.toNat) →
      s.document = .error .unwritable ∧ s.save file d = (.error (.settings .unwritable), d)) ∧
    ((∀ n ∈ s.numbers, (n.toNat : Int) ≤ Int64.maxValue.toInt) →
      (∃ text, s.document = .ok text) ∧
        (d.Takes path → d.Takes (folder.child (draftName name)) →
          ∃ d', s.save file d = (.ok (), d'))) ∧
    (d.IsTree → (s.save file d).2.IsTree) := by
  refine ⟨fun d' => of_save_ok h, fun complaint d' hs => ?_, fun hlarge => ?_, fun hfits => ?_,
    fun htree => isTree_save htree s file⟩
  · refine ⟨draft_ne_target h d, sameFiles_of_save_error h hs, fun p => files_of_save_error h hs,
      node?_of_save_error h hs, fun hpath => ?_⟩
    have hheld := held?_of_save_error h hs hpath
    exact ⟨hheld, ofFile_of_held? hheld⟩
  · obtain ⟨n, hn, hlt⟩ := hlarge
    have hfits : ¬s.Fits := fun hfits =>
      absurd (fits_iff_le_maxValue.mp hfits n hn) (not_le.mpr hlt)
    exact ⟨document_of_not_fits hfits, save_of_not_fits hfits file d⟩
  · replace hfits := fits_iff_le_maxValue.mpr hfits
    exact ⟨⟨_, document_of_fits hfits⟩, save_of_takes h hfits⟩

/-- **A path that goes back can be led to what a failed save has made.**  The folder is made
on the way, and the new settings cannot be moved into its place. -/
theorem save_leaves_directory :
    let path := "cfg/../cfg"
    let d : Disk := {}
    let d' := (({} : Settings).save path d).2
    (Path.ofText path).split? = some (⟨false, ["cfg", ".."]⟩, "cfg") ∧
      d.spot (.ofText path) = ["cfg"] ∧ d.IsTree ∧
      (({} : Settings).save path d).1 = .error (.file .isDirectory) ∧
      d.bytesAt ["cfg"] = .error .notFound ∧ d'.bytesAt ["cfg"] = .error .isDirectory ∧
      ofFile d.files path = .ok {} ∧ ofFile d'.files path = .error (.file .isDirectory) := by
  refine ⟨by decide, by decide, Disk.isTree_empty, ?_⟩
  decide +kernel

/-- Settings whose level holds both marks, an escape, a line break and a control
character. -/
def oddlyLogged : Settings := { logging := { level := "it's \"odd\" \\\n\x07" } }

theorem save_into_new_folder :
    (Path.ofText "etc/config.toml").split? = some (⟨false, ["etc"]⟩, "config.toml") ∧
      ∃ d', oddlyLogged.save "etc/config.toml" {} = (.ok (), d') ∧
        ofFile d'.files "etc/config.toml" = .ok oddlyLogged ∧
          d'.node? ["config.toml.tmp", "etc"] = none := by
  have hsplit : (Path.ofText "etc/config.toml").split? =
      some (⟨false, ["etc"]⟩, "config.toml") := by decide
  have hok : (oddlyLogged.save "etc/config.toml" {}).1 = .ok () := by decide +kernel
  have hall := save_is_all_or_nothing oddlyLogged "etc/config.toml" {} hsplit
  obtain ⟨hread, hgone, -⟩ := hall.1 _ (Prod.ext hok rfl)
  exact ⟨hsplit, _, Prod.ext hok rfl, hread, hgone⟩

end Settings

end Almanac
