import ForwardedIp.Files.FileTree
import ForwardedIp.Proofs.Basics
/-!
# Places that paths lead to

A path with a file name leads to that name in the directory in front of it, and the paths made by
replacing its extension lead to other names in the same directory. What stands at the end of a
path without mattering to its name, slashes and single dots, only asks for a directory there.
-/
namespace ForwardedIp

namespace Path
variable {cs front name tail : List Char} {path : String}

/-- Slashes, and slashes with a single dot after them. -/
inductive Idle : List Char → Prop where
  | nil : Idle []
  | slash {tail : List Char} (h : Idle tail) : Idle ('/' :: tail)
  | dot {tail : List Char} (h : Idle tail) : Idle ('/' :: '.' :: tail)

theorem Idle.append {a b : List Char} (ha : Idle a) (hb : Idle b) : Idle (a ++ b) := by
  induction ha with
  | nil => exact hb
  | slash _ ih => exact .slash ih
  | dot _ ih => exact .dot ih

theorem idle_of_slashes (h : ∀ c ∈ cs, c = '/') : Idle cs := by
  induction cs with
  | nil => exact .nil
  | cons c cs ih =>
    rw [h c List.mem_cons_self]
    exact .slash (ih fun d hd => h d (List.mem_cons_of_mem c hd))

theorem exists_dropSlashes (cs : List Char) : ∃ tail, Idle tail ∧ cs = dropSlashes cs ++ tail := by
  refine ⟨(cs.reverse.takeWhile (· == '/')).reverse, idle_of_slashes fun c hc => ?_, ?_⟩
  · have hslash := List.all_eq_true.mp List.all_takeWhile c (List.mem_reverse.mp hc)
    exact beq_iff_eq.mp hslash
  · rw [dropSlashes, ← List.reverse_append, List.takeWhile_append_dropWhile, List.reverse_reverse]

/-- Only idle characters are dropped. -/
theorem exists_dropIdle (fuel : Nat) (cs : List Char) :
    ∃ tail, Idle tail ∧ cs = dropIdle fuel cs ++ tail := by
  induction fuel generalizing cs with
  | zero => exact ⟨[], .nil, by rw [dropIdle, List.append_nil]⟩
  | succ fuel ih =>
    obtain ⟨slashes, hslashes, hcs⟩ := exists_dropSlashes cs
    rw [dropIdle]
    split
    · next rest hrest =>
      obtain ⟨tail, htail, hdir⟩ := ih rest.reverse
      refine ⟨tail ++ '/' :: '.' :: slashes, htail.append (.dot hslashes), ?_⟩
      have hfront : dropSlashes cs = rest.reverse ++ ['/', '.'] := by
        rw [← List.reverse_reverse (dropSlashes cs), hrest]
        simp
      rw [← List.append_assoc, ← hdir, hcs, hfront]
      simp
    · exact ⟨slashes, hslashes, hcs⟩

/-! ## Pieces -/

/-- The pieces of a path given by its characters. -/
def cut (cs : List Char) : List String := (cs.splitOn '/').map String.ofList

theorem cut_append_slash (a b : List Char) : cut (a ++ '/' :: b) = cut a ++ cut b := by
  rw [cut, List.splitOn_eq_splitOnP, List.splitOnP_append_cons (p := (· == '/')) a b rfl,
    List.map_append]
  rfl

theorem cut_of_notMem (h : '/' ∉ cs) : cut cs = [String.ofList cs] := by
  have hplain : ∀ c ∈ cs, (c == '/') = false := fun c hc => by
    rw [beq_eq_false_iff_ne]
    rintro rfl
    exact h hc
  rw [cut, List.splitOn_eq_splitOnP, List.splitOnP_eq_singleton hplain]
  rfl

/-- A piece that does not lead anywhere else. -/
def IsIdle (piece : String) : Prop := piece = "" ∨ piece = "."

/-- An idle tail adds idle pieces. -/
theorem Idle.exists_cut (h : Idle tail) (cs : List Char) :
    ∃ rest, cut (cs ++ tail) = cut cs ++ rest ∧ (∀ piece ∈ rest, IsIdle piece) ∧
      (tail ≠ [] → rest ≠ []) := by
  induction h generalizing cs with
  | nil => exact ⟨[], by simp, by simp, by simp⟩
  | @slash tail _ ih =>
    obtain ⟨rest, hrest, hidle, -⟩ := ih []
    refine ⟨"" :: rest, ?_, List.forall_mem_cons.mpr ⟨.inl rfl, hidle⟩, by simp⟩
    rw [cut_append_slash, ← List.nil_append tail, hrest]
    rfl
  | @dot tail _ ih =>
    obtain ⟨rest, hrest, hidle, -⟩ := ih ['.']
    refine ⟨"." :: rest, ?_, List.forall_mem_cons.mpr ⟨.inr rfl, hidle⟩, by simp⟩
    rw [cut_append_slash, ← List.singleton_append, hrest]
    rfl

/-- What is in front of a file name: nothing, or a text that ends with a slash. -/
def IsFront (front : List Char) : Prop := front = [] ∨ ∃ dir, front = dir ++ ['/']

/-- The pieces on the way to a file name. -/
def way (front : List Char) : List String := (cut front).dropLast

theorem IsFront.cut_append (h : IsFront front) (hname : '/' ∉ name) :
    cut (front ++ name) = way front ++ [String.ofList name] := by
  rcases h with rfl | ⟨dir, rfl⟩
  · rw [List.nil_append, cut_of_notMem hname]
    rfl
  · rw [way, List.append_assoc, List.singleton_append, cut_append_slash, cut_append_slash,
      cut_of_notMem hname]
    simp [cut]

theorem IsFront.cut_eq (h : IsFront front) : cut front = way front ++ [""] := by
  have hcut := h.cut_append (show '/' ∉ [] by simp)
  rwa [List.append_nil] at hcut

/-! ## File names -/

/-- A name that leads to a new place. -/
structure IsName (name : List Char) : Prop where
  nonempty : name ≠ []
  plain : '/' ∉ name
  ne_dot : name ≠ ['.']
  ne_dots : name ≠ ['.', '.']

/-- A path has a file name with something in front of it and an idle tail. -/
structure Named (path : String) (front name tail : List Char) : Prop where
  chars : path.toList = front ++ (name ++ tail)
  front : IsFront front
  name : IsName name
  idle : Idle tail

/-- Whatever has a slash at its end, or nothing, is in front of the rest. -/
theorem isFront_dropWhile (cs : List Char) :
    IsFront (cs.reverse.dropWhile (· != '/')).reverse := by
  cases h : cs.reverse.dropWhile (· != '/') with
  | nil => exact .inl rfl
  | cons c rest =>
    have hslash : c = '/' := by
      have hhead := List.head?_dropWhile_not (· != '/') cs.reverse
      rw [h] at hhead
      simpa using hhead
    exact .inr ⟨rest.reverse, by rw [hslash, List.reverse_cons]⟩

theorem notMem_takeWhile (cs : List Char) : '/' ∉ (cs.reverse.takeWhile (· != '/')).reverse := by
  intro hmem
  have hplain := List.all_eq_true.mp List.all_takeWhile '/' (List.mem_reverse.mp hmem)
  cases hplain

theorem split_at_last_slash (cs : List Char) :
    (cs.reverse.dropWhile (· != '/')).reverse ++ (cs.reverse.takeWhile (· != '/')).reverse =
      cs := by
  rw [← List.reverse_append, List.takeWhile_append_dropWhile, List.reverse_reverse]

/-- What is in front of the file name. -/
def lead (path : String) : List Char := ((trimmed path).reverse.dropWhile (· != '/')).reverse

theorem trimmed_eq {name : List Char} (h : fileName? path = some name) :
    trimmed path = lead path ++ name ∧ IsName name := by
  unfold fileName? at h
  simp only at h
  split at h
  · cases h
  · next hname =>
    cases h
    simp only [not_or] at hname
    exact ⟨(split_at_last_slash _).symm, hname.1, notMem_takeWhile _, hname.2.2, hname.2.1⟩

theorem exists_named {name : List Char} (h : fileName? path = some name) :
    ∃ tail, Named path (lead path) name tail := by
  obtain ⟨htrimmed, hname⟩ := trimmed_eq h
  obtain ⟨tail, htail, hchars⟩ := exists_dropIdle path.length path.toList
  rw [← trimmed, htrimmed, List.append_assoc] at hchars
  exact ⟨tail, hchars, isFront_dropWhile _, hname, htail⟩

/-- Characters of an extension: neither slashes nor dots, and one at least. -/
structure IsExtension (extension : String) : Prop where
  nonempty : extension.toList ≠ []
  plain : ∀ c ∈ extension.toList, c ≠ '/' ∧ c ≠ '.'

theorem stem_subset (name : List Char) : stem name ⊆ name := by
  unfold stem
  simp only
  split
  · next rest hrest =>
    split
    · exact List.Subset.refl name
    · intro c hc
      have hmem : c ∈ name.reverse.dropWhile (· != '.') := by
        rw [hrest]
        exact List.mem_cons_of_mem _ (List.mem_reverse.mp hc)
      exact List.mem_reverse.mp ((List.dropWhile_sublist _).subset hmem)
  · exact List.Subset.refl name

theorem IsName.withExtension (h : IsName name) {extension : String}
    (hext : IsExtension extension) : IsName (stem name ++ '.' :: extension.toList) where
  nonempty := by simp
  plain hmem := by
    rcases List.mem_append.mp hmem with hmem | hmem
    · exact h.plain (stem_subset name hmem)
    · rcases List.mem_cons.mp hmem with heq | hmem
      · cases heq
      · exact (hext.plain _ hmem).1 rfl
  ne_dot heq := by
    obtain ⟨c, hc⟩ := List.exists_mem_of_ne_nil _ hext.nonempty
    have hdot : c ∈ ['.'] := heq ▸ List.mem_append_right _ (List.mem_cons_of_mem _ hc)
    exact (hext.plain c hc).2 (List.mem_singleton.mp hdot)
  ne_dots heq := by
    obtain ⟨c, hc⟩ := List.exists_mem_of_ne_nil _ hext.nonempty
    have hdots : c ∈ ['.', '.'] := heq ▸ List.mem_append_right _ (List.mem_cons_of_mem _ hc)
    exact (hext.plain c hc).2 (by simpa using hdots)

/-- Replacing the extension changes the name only. -/
theorem named_withExtension {name : List Char} (h : fileName? path = some name)
    {extension : String} (hext : IsExtension extension) :
    Named (withExtension path extension) (lead path) (stem name ++ '.' :: extension.toList) [] := by
  obtain ⟨htrimmed, hname⟩ := trimmed_eq h
  have hfront : (trimmed path).take ((trimmed path).length - name.length) = lead path := by
    rw [htrimmed, List.length_append, Nat.add_sub_cancel, List.take_left]
  refine ⟨?_, isFront_dropWhile _, hname.withExtension hext, .nil⟩
  simp only [withExtension, h, hfront, String.toList_ofList, List.append_nil, List.append_assoc]

/-- Nothing is dropped behind a name. -/
theorem dropIdle_of_name (fuel : Nat) (front : List Char) (h : IsName name) :
    dropIdle fuel (front ++ name) = front ++ name := by
  cases fuel with
  | zero => rfl
  | succ fuel =>
    obtain ⟨init, c, hname⟩ := (List.eq_nil_or_concat name).resolve_left h.nonempty
    rw [List.concat_eq_append] at hname
    subst hname
    have hc : (c == '/') = false := by
      rw [beq_eq_false_iff_ne]
      rintro rfl
      exact h.plain (by simp)
    have hslashes : dropSlashes (front ++ (init ++ [c])) = front ++ (init ++ [c]) := by
      simp [dropSlashes, hc]
    rw [dropIdle, hslashes]
    split
    · next rest hrest =>
      exfalso
      rw [← List.append_assoc, List.reverse_append, List.reverse_append] at hrest
      injection hrest with hdot hrest
      cases hinit : init.reverse with
      | nil => exact h.ne_dot (by rw [List.reverse_eq_nil_iff.mp hinit, hdot]; rfl)
      | cons d before =>
        rw [hinit] at hrest
        injection hrest with hslash hrest
        have hmem : '/' ∈ init := List.mem_reverse.mp (hinit ▸ hslash ▸ List.mem_cons_self)
        exact h.plain (List.mem_append_left _ hmem)
    · rfl

/-- A path whose last piece is a name has that name. -/
theorem fileName?_of_isName (h : IsName (path.toList.reverse.takeWhile (· != '/')).reverse) :
    fileName? path = some (path.toList.reverse.takeWhile (· != '/')).reverse := by
  have htrimmed : trimmed path = path.toList := by
    have hdrop := dropIdle_of_name path.length (path.toList.reverse.dropWhile (· != '/')).reverse h
    rwa [split_at_last_slash] at hdrop
  have hname := h.nonempty
  have hdots := h.ne_dots
  have hdot := h.ne_dot
  simp only [fileName?, htrimmed, hname, hdots, hdot, or_self, if_false]

/-- The directory that holds a path, if it has a path of its own. -/
theorem parent?_eq {dir : String} (h : parent? path = some dir) (hdir : dir ≠ "") :
    dir = if (dropIdle path.length (lead path)).isEmpty then "/"
      else String.ofList (dropIdle path.length (lead path)) := by
  unfold parent? at h
  simp only at h
  split at h
  · cases h
  · split at h
    · cases h
      exact absurd rfl hdir
    · exact (Option.some.inj h).symm

theorem Named.root {front name tail : List Char} (h : Named path front name tail) :
    root path = root (String.ofList front) := by
  unfold Path.root
  rw [h.chars, String.toList_ofList]
  cases front with
  | cons c front => rfl
  | nil =>
    obtain ⟨c, rest, hname⟩ := List.exists_cons_of_ne_nil h.name.nonempty
    have hc : c ≠ '/' := by
      rintro rfl
      exact h.name.plain (hname ▸ List.mem_cons_self)
    simp [hname, hc]

end Path

namespace FileTree
open ForwardedIp.Path
variable {t : FileTree} {place goal dir : List String} {path : String}

/-! ## Steps -/

theorem directory_of_step {piece : String} (h : t.step place piece = .ok goal) :
    t.get? place = some .directory := by
  unfold step at h
  split at h
  · cases h
  · cases h
  · assumption

theorem step_idle {piece : String} (hidle : IsIdle piece)
    (hplace : t.get? place = some .directory) : t.step place piece = .ok place := by
  simp only [step, hplace]
  exact if_pos hidle

theorem step_name {name : List Char} (hname : IsName name)
    (h : t.step place (String.ofList name) = .ok goal) : goal = place ++ [String.ofList name] := by
  have hempty : String.ofList name ≠ "" := fun heq =>
    hname.nonempty (String.ofList_injective heq)
  have hdot : String.ofList name ≠ "." := fun heq => hname.ne_dot (String.ofList_injective heq)
  have hdots : String.ofList name ≠ ".." := fun heq => hname.ne_dots (String.ofList_injective heq)
  simp only [step, directory_of_step h, hempty, hdot, hdots, false_or, if_false] at h
  split at h
  · cases h
  · cases h
    rfl

theorem foldlM_of_idle {pieces : List String} (hidle : ∀ piece ∈ pieces, IsIdle piece)
    (h : t.get? place = some .directory) : pieces.foldlM t.step place = .ok place := by
  induction pieces with
  | nil => rfl
  | cons piece pieces ih =>
    obtain ⟨hpiece, hpieces⟩ := List.forall_mem_cons.mp hidle
    rw [List.foldlM_cons, step_idle hpiece h]
    exact ih hpieces

/-- Idle pieces lead nowhere else, and only through a directory. -/
theorem foldlM_idle {pieces : List String} (hidle : ∀ piece ∈ pieces, IsIdle piece)
    (h : pieces.foldlM t.step place = .ok goal) :
    goal = place ∧ (pieces ≠ [] → t.get? place = some .directory) := by
  induction pieces with
  | nil =>
    cases h
    exact ⟨rfl, fun hne => absurd rfl hne⟩
  | cons piece pieces ih =>
    obtain ⟨hpiece, hpieces⟩ := List.forall_mem_cons.mp hidle
    rw [List.foldlM_cons] at h
    obtain ⟨next, hstep, h⟩ := ok_of_bind h
    have hplace := directory_of_step hstep
    rw [step_idle hpiece hplace] at hstep
    cases hstep
    exact ⟨(ih hpieces h).1, fun _ => hplace⟩

/-- A path that can be followed at all is followed piece by piece. -/
theorem follow_ok {pieces : List String} : t.follow path pieces = .ok place ↔
    pieces.foldlM t.step (Path.root path) = .ok place ∧ '\x00' ∉ path.toList ∧ path ≠ "" ∧
      path.utf8ByteSize ≤ longestPath := by
  unfold follow
  split
  · next hzero => simp [List.contains_iff_mem.mp hzero]
  · next hzero =>
    rw [List.contains_iff_mem] at hzero
    split
    · next hempty => simp [hempty]
    · next hempty =>
      split
      · next hlong => simp [Nat.not_le.mpr hlong]
      · next hshort => simp [hzero, hempty, Nat.not_lt.mp hshort]

theorem foldlM_of_locate (h : t.locate path = .ok place) :
    (cut path.toList).foldlM t.step (Path.root path) = .ok place := (follow_ok.mp h).1

/-- The directory that the front of a path leads to. -/
def directoryAt (t : FileTree) (front : List Char) : Except IoFault (List String) :=
  (way front).foldlM t.step (Path.root (String.ofList front))

/-- A path with a file name leads to that name in the directory in front of it. With an idle tail
it leads there only if a directory stands there. -/
theorem locate_named {front name tail : List Char} (hnamed : Named path front name tail)
    (h : t.locate path = .ok place) :
    ∃ dir, t.directoryAt front = .ok dir ∧ t.get? dir = some .directory ∧
      place = dir ++ [String.ofList name] ∧ (tail ≠ [] → t.get? place = some .directory) := by
  have hfold := foldlM_of_locate h
  obtain ⟨rest, hrest, hidle, hne⟩ := hnamed.idle.exists_cut (front ++ name)
  rw [hnamed.root, hnamed.chars, ← List.append_assoc, hrest,
    hnamed.front.cut_append hnamed.name.plain, List.foldlM_append, List.foldlM_append] at hfold
  obtain ⟨named, hfold, hrest⟩ := ok_of_bind hfold
  obtain ⟨dir, hdir, hname⟩ := ok_of_bind hfold
  rw [List.foldlM_cons] at hname
  obtain ⟨place', hstep, hnil⟩ := ok_of_bind hname
  cases hnil
  obtain ⟨rfl, hdirectory⟩ := foldlM_idle hidle hrest
  exact ⟨dir, hdir, directory_of_step hstep, step_name hnamed.name hstep,
    fun htail => hdirectory (hne htail)⟩

/-- Paths that differ in their names only lead to different places, unless a directory stands in
the way. -/
theorem directory_of_locate_eq {other : String} {front name name' tail : List Char}
    (hpath : Named path front name tail) (hother : Named other front name' [])
    (hne : other ≠ path) (h : t.locate path = .ok place) (h' : t.locate other = .ok place) :
    t.get? place = some .directory := by
  obtain ⟨dir, hdir, -, hplace, htail⟩ := locate_named hpath h
  obtain ⟨dir', hdir', -, hplace', -⟩ := locate_named hother h'
  rw [hdir] at hdir'
  cases hdir'
  rw [hplace] at hplace'
  have hname : name = name' := by
    have hlast := List.append_cancel_left hplace'
    exact String.ofList_injective (List.singleton_inj.mp hlast)
  refine htail fun hnil => hne ?_
  have hchars : other.toList = path.toList := by
    rw [hpath.chars, hother.chars, hname, hnil]
  exact String.toList_injective hchars

/-! ## The directory around a path -/

/-- A part at the front of a path that leads somewhere can be followed as well. -/
theorem locate_front {cs rest : List Char} (h : t.locate path = .ok place)
    (hchars : path.toList = cs ++ rest) (hcs : cs ≠ [])
    (hfold : (cut cs).foldlM t.step (Path.root (String.ofList cs)) = .ok goal) :
    t.locate (String.ofList cs) = .ok goal := by
  obtain ⟨-, hzero, -, hsize⟩ := follow_ok.mp h
  have hpath : path = String.ofList cs ++ String.ofList rest := by
    rw [← String.ofList_append, ← hchars, String.ofList_toList]
  refine follow_ok.mpr ⟨?_, fun hmem => hzero ?_, fun heq => hcs (String.ofList_injective heq), ?_⟩
  · rw [pieces, String.toList_ofList]
    exact hfold
  · rw [hchars]
    rw [String.toList_ofList] at hmem
    exact List.mem_append_left rest hmem
  · rw [hpath, String.utf8ByteSize_append] at hsize
    omega

/-- Around a path that leads to a place in some directory, that directory has a path. -/
theorem contains_parent {other dir : String} {name tail : List Char}
    (hother : Named other (lead path) name tail) (h : t.locate other = .ok place)
    (hparent : parent? path = some dir) (hdir : dir ≠ "") : t.contains dir = true := by
  rw [parent?_eq hparent hdir]
  obtain ⟨tail', htail', hlead⟩ := exists_dropIdle path.length (lead path)
  generalize dropIdle path.length (lead path) = cs at hlead ⊢
  cases cs with
  | nil => rfl
  | cons c cs =>
    obtain ⟨place', hplace', hdirectory, -, -⟩ := locate_named hother h
    have hroot : Path.root (String.ofList (lead path)) = Path.root (String.ofList (c :: cs)) := by
      rw [hlead]
      simp [Path.root]
    obtain ⟨rest, hrest, hidle, -⟩ := htail'.exists_cut (c :: cs)
    -- Following the whole front ends in the directory, and the idle pieces dropped do not move.
    have hfold : (cut (lead path)).foldlM t.step (Path.root (String.ofList (lead path))) =
        .ok place' := by
      have hempty : [""].foldlM t.step place' = .ok place' :=
        foldlM_of_idle (by simp [IsIdle]) hdirectory
      rw [hother.front.cut_eq, List.foldlM_append]
      rw [directoryAt] at hplace'
      rw [hplace']
      exact hempty
    rw [hroot, hlead, hrest, List.foldlM_append] at hfold
    obtain ⟨place'', hfront, hrest⟩ := ok_of_bind hfold
    obtain ⟨rfl, -⟩ := foldlM_idle hidle hrest
    have hchars : other.toList = (c :: cs) ++ (tail' ++ (name ++ tail)) := by
      rw [hother.chars, hlead, List.append_assoc]
    have hlocate : t.locate (String.ofList (c :: cs)) = .ok place' :=
      locate_front h hchars (by simp) hfront
    have hentry : t.contains (String.ofList (c :: cs)) = true := by
      rw [contains, hlocate]
      simp only [hdirectory, Option.isSome_some]
    exact hentry

/-! ## Paths without a name -/

/-- On the way to a place there are directories only. -/
def Grounded (t : FileTree) (place : List String) : Prop :=
  ∀ front, front <+: place → front = place ∨ t.get? front = some .directory

theorem grounded_root (t : FileTree) (path : String) : t.Grounded (Path.root path) := by
  unfold Path.root
  split
  · intro front hfront
    rcases List.prefix_cons_iff.mp hfront with rfl | ⟨rest, rfl, hrest⟩
    · exact .inr rfl
    · rw [List.prefix_nil.mp hrest]
      exact .inl rfl
  · exact fun front hfront => .inl (List.prefix_nil.mp hfront)

theorem Grounded.above (h : t.Grounded place) (hplace : t.get? place = some .directory) :
    t.get? (Path.above place) = some .directory := by
  unfold Path.above
  split
  · exact hplace
  · rcases h _ (List.dropLast_prefix place) with heq | hdirectory
    · rw [heq]
      exact hplace
    · exact hdirectory

theorem Grounded.step (h : t.Grounded place) {piece : String}
    (hstep : t.step place piece = .ok goal) : t.Grounded goal := by
  have hplace := directory_of_step hstep
  have hfronts : ∀ front, front <+: place → t.get? front = some .directory := fun front hfront =>
    (h front hfront).elim (fun heq => heq ▸ hplace) id
  simp only [FileTree.step, hplace] at hstep
  split at hstep
  · cases hstep
    exact h
  · split at hstep
    · cases hstep
      intro front hfront
      refine .inr (hfronts front (hfront.trans ?_))
      unfold Path.above
      split
      · exact List.prefix_rfl
      · exact List.dropLast_prefix place
    · split at hstep
      · cases hstep
      · cases hstep
        intro front hfront
        rcases List.prefix_concat_iff.mp hfront with rfl | hfront
        · exact .inl rfl
        · exact .inr (hfronts front hfront)

theorem Grounded.foldlM (h : t.Grounded place) {pieces : List String}
    (hfold : pieces.foldlM t.step place = .ok goal) : t.Grounded goal := by
  induction pieces generalizing place with
  | nil =>
    cases hfold
    exact h
  | cons piece pieces ih =>
    rw [List.foldlM_cons] at hfold
    obtain ⟨next, hstep, hfold⟩ := ok_of_bind hfold
    exact ih (h.step hstep) hfold

/-- A path that leads to something else than a directory has a file name. -/
theorem exists_fileName? (h : t.locate path = .ok place)
    (hplace : t.get? place ≠ some .directory) : ∃ name, fileName? path = some name := by
  have hfold := foldlM_of_locate h
  rw [← split_at_last_slash path.toList,
    (isFront_dropWhile _).cut_append (notMem_takeWhile _), List.foldlM_append] at hfold
  obtain ⟨dir, hdir, hlast⟩ := ok_of_bind hfold
  rw [List.foldlM_cons] at hlast
  obtain ⟨place', hstep, hnil⟩ := ok_of_bind hlast
  cases hnil
  have hdirectory := directory_of_step hstep
  refine ⟨_, fileName?_of_isName ⟨fun hempty => ?_, notMem_takeWhile _, fun hdot => ?_,
    fun hdots => ?_⟩⟩
  · rw [hempty, step_idle (.inl rfl) hdirectory] at hstep
    cases hstep
    exact hplace hdirectory
  · rw [hdot, step_idle (.inr rfl) hdirectory] at hstep
    cases hstep
    exact hplace hdirectory
  · have habove : t.step dir ".." = .ok (Path.above dir) := by
      simp only [step, hdirectory]
      rfl
    rw [hdots, show String.ofList ['.', '.'] = ".." from rfl, habove] at hstep
    cases hstep
    exact hplace (((grounded_root t path).foldlM hdir).above hdirectory)

end FileTree
end ForwardedIp
