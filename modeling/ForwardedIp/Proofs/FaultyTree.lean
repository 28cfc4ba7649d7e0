import ForwardedIp.Proofs.LedgerWrites
/-!
# File trees whose effects fail

A file system in which any effect may fail, whatever the tree allows: what happens to the next
effects is laid down in a list. An effect that fails may have filled its target with any bytes
first, and it is noted.
-/
namespace ForwardedIp

/-- What happens to an effect: it is left to the tree, or it fails, perhaps after some bytes. -/
inductive Fate where
  | done
  | failed (fault : IoFault) (part : Option ByteArray)

namespace FileTree

/-- What an effect that fails after some bytes leaves behind. -/
def tear (t : FileTree) : FileEffect → Option ByteArray → FileTree
  | .write path _, some part => (t.settle (t.writeFile path part)).2
  | .copy _ target, some part =>
      (t.settle ((t.createFile target).bind fun t => t.writeFile target part)).2
  | _, _ => t

theorem torn_tear (t : FileTree) (effect : FileEffect) (part : Option ByteArray) :
    Torn effect t (t.tear effect part) := by
  unfold tear
  split
  · next path content part =>
    cases hwrite : t.writeFile path part with
    | error fault => exact .untouched _ t
    | ok t' => exact .write content hwrite
  · next source target part =>
    cases hcreate : t.createFile target with
    | error fault => exact .untouched _ t
    | ok t₁ =>
      simp only [Except.bind]
      cases hwrite : t₁.writeFile target part with
      | error fault => exact .untouched _ t
      | ok t' => exact .copy source hcreate hwrite
  · exact .untouched _ t

/-- A copy of what is not there, which nobody asks for. -/
def isIdleCopy (t : FileTree) : FileEffect → Bool
  | .copy source _ => !t.contains source
  | _ => false

theorem absent_of_isIdleCopy {t : FileTree} {source target : String}
    (h : t.isIdleCopy (.copy source target) = true) : t.contains source = false := by
  simpa [isIdleCopy] using h

/-- A copy of what is not there is refused. -/
theorem perform_idleCopy {t : FileTree} {effect : FileEffect} (h : t.isIdleCopy effect = true) :
    ∃ fault, FileSystem.perform effect t = (.error fault, t) := by
  cases effect with
  | copy source target =>
    have habsent := absent_of_isIdleCopy h
    have hrefused : ∃ fault, t.copyFile source target = .error fault := by
      unfold contains at habsent
      unfold copyFile
      cases hplace : t.locate source with
      | error fault => exact ⟨fault, rfl⟩
      | ok place =>
        simp only [hplace, Option.isSome_eq_false_iff, Option.isNone_iff_eq_none] at habsent
        simp only [bind, Except.bind, habsent]
        exact ⟨_, rfl⟩
    obtain ⟨fault, hcopy⟩ := hrefused
    exact ⟨fault, by rw [FileSystem.perform]; simp only [instFileSystem, hcopy, settle]⟩
  | _ => cases h

end FileTree

/-- A tree with the fates of the next effects, and the effects that have failed. What has no fate
laid down is left to the tree. -/
structure FaultyTree where
  tree : FileTree
  fates : List Fate := []
  failures : List FileEffect := []

namespace FaultyTree
open FileTree
variable {f f' : FaultyTree} {effect : FileEffect} {result : Except IoFault Unit}

/-- An effect has failed and left this tree behind. -/
def failing (f : FaultyTree) (effect : FileEffect) (tree : FileTree) : FaultyTree :=
  ⟨tree, f.fates.tail, effect :: f.failures⟩

/-- What happens to an effect that is asked for. -/
def meet (effect : FileEffect) (f : FaultyTree) : Except IoFault Unit × FaultyTree :=
  match f.fates.headD .done with
  | .failed fault part => (.error fault, f.failing effect (f.tree.tear effect part))
  | .done =>
      match FileSystem.perform effect f.tree with
      | (.ok (), tree) => (.ok (), ⟨tree, f.fates.tail, f.failures⟩)
      | (.error fault, tree) => (.error fault, f.failing effect tree)

/-- An idle copy is refused by the tree and not noted. -/
instance : FileSystem FaultyTree where
  contains f path := f.tree.contains path
  read f path := f.tree.content path
  perform effect f :=
    if f.tree.isIdleCopy effect then
      let (result, tree) := FileSystem.perform effect f.tree
      (result, { f with tree })
    else f.meet effect

theorem perform_idle (f : FaultyTree) (h : f.tree.isIdleCopy effect = true) :
    FileSystem.perform effect f = ((FileSystem.perform effect f.tree).1,
      { f with tree := (FileSystem.perform effect f.tree).2 }) := if_pos h

theorem perform_asked (f : FaultyTree) (h : ¬f.tree.isIdleCopy effect = true) :
    FileSystem.perform effect f = f.meet effect := if_neg h

/-- What the tree carries out goes through where no fates are laid down. -/
theorem perform_fateless {t t' : FileTree} (h : FileSystem.perform effect t = (.ok (), t')) :
    FileSystem.perform effect (⟨t, [], []⟩ : FaultyTree) = (.ok (), ⟨t', [], []⟩) := by
  by_cases hidle : t.isIdleCopy effect = true
  · rw [perform_idle ⟨t, [], []⟩ hidle, h]
  · rw [perform_asked ⟨t, [], []⟩ hidle]
    simp only [meet, List.headD_nil, h]
    rfl

/-- What an effect that is asked for comes to: the tree has carried it out, or it is noted. -/
theorem meet_cases (h : f.meet effect = (result, f')) :
    (result = .ok () ∧ FileSystem.perform effect f.tree = (.ok (), f'.tree) ∧
      f'.failures = f.failures) ∨
    ∃ fault, result = .error fault ∧ f'.failures = effect :: f.failures ∧
      (Torn effect f.tree f'.tree ∨
        FileSystem.perform effect f.tree = (.error fault, f'.tree)) := by
  unfold meet at h
  split at h
  · next fault part hfate =>
    cases h
    exact .inr ⟨fault, rfl, rfl, .inl (torn_tear f.tree effect part)⟩
  · next hfate =>
    split at h
    · next tree hperform =>
      cases h
      exact .inl ⟨rfl, hperform, rfl⟩
    · next fault tree hperform =>
      cases h
      exact .inr ⟨fault, rfl, rfl, .inr hperform⟩

/-- Whatever an effect comes to, the tree has carried it out, refused it or torn it. -/
theorem perform_cases (h : FileSystem.perform effect f = (result, f')) :
    FileSystem.perform effect f.tree = (result, f'.tree) ∨
      ∃ fault, result = .error fault ∧ Torn effect f.tree f'.tree := by
  by_cases hidle : f.tree.isIdleCopy effect = true
  · rw [perform_idle _ hidle] at h
    cases h
    exact .inl rfl
  · rw [perform_asked _ hidle] at h
    obtain ⟨rfl, hperform, -⟩ | ⟨fault, rfl, -, htorn | hperform⟩ := meet_cases h
    · exact .inl hperform
    · exact .inr ⟨fault, rfl, htorn⟩
    · exact .inl hperform

instance : KeepsTree FaultyTree where
  tree := tree
  contains_eq _ _ := rfl
  read_eq _ _ := rfl
  perform_ok h := by
    obtain hperform | ⟨fault, hfault, -⟩ := perform_cases h
    · exact hperform
    · cases hfault
  perform_error heffect h := by
    obtain hperform | ⟨fault, -, htorn⟩ := perform_cases h
    · exact KeepsTree.perform_error (F := FileTree) heffect hperform
    · exact htorn

/-- An effect that leaves no failures behind has been carried out, or was an idle copy, and there
were none before. -/
theorem perform_quiet (h : FileSystem.perform effect f = (result, f'))
    (hquiet : f'.failures = []) : f.failures = [] ∧
      ((result = .ok () ∧ FileSystem.perform effect f.tree = (.ok (), f'.tree)) ∨
        f.tree.isIdleCopy effect = true ∧ ∃ fault, result = .error fault ∧ f'.tree = f.tree) := by
  by_cases hidle : f.tree.isIdleCopy effect = true
  · obtain ⟨fault, hrefused⟩ := perform_idleCopy hidle
    rw [perform_idle _ hidle, hrefused] at h
    cases h
    exact ⟨hquiet, .inr ⟨hidle, fault, rfl, rfl⟩⟩
  · rw [perform_asked _ hidle] at h
    obtain ⟨rfl, hperform, hsame⟩ | ⟨fault, -, hnoted, -⟩ := meet_cases h
    · exact ⟨hsame.symm.trans hquiet, .inl ⟨rfl, hperform⟩⟩
    · rw [hnoted] at hquiet
      cases hquiet

end FaultyTree
end ForwardedIp
