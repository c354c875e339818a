import SliceLint.Rule.SliceBaseline
import SliceLint.Proofs.Sequence

/-!
# What is reported of a slice

Of a slice only missing files are reported. On a disk that answers every question they are the
expected files that are not there, in the order of the expected files.
-/

namespace SliceLint

/-- The violation reports a missing file of a slice. -/
def Violation.isBaseline (v : Violation) : Bool :=
  v.rule == SliceBaseline.info.id && v.messageId == "missingBaseline"

namespace SliceBaseline

theorem checkFile_eq (view : FileView) (directory file : String) :
    checkFile view directory file =
      (view.isFile (Path.below directory file)).map fun there =>
        if there then [] else [missing file] := by
  unfold checkFile
  cases view.isFile (Path.below directory file) with
  | error fault => rfl
  | ok there => cases there <;> rfl

theorem check_of_owner {files : List String} (ctx : FileContext) {slice : String}
    (hc : ctx.coordinate = some ⟨.features, some slice⟩)
    (howns : ctx.run.ownsSlice ctx.relPath ⟨.features, some slice⟩ = true) :
    check files ctx = ((expected files slice).mapM
      (checkFile ctx.run.view (sliceDirectory ctx.run slice))).map List.flatten := by
  rw [check, hc]
  exact if_pos howns

theorem check_of_not_owner {files : List String} (ctx : FileContext)
    (h : ∀ slice, ctx.coordinate = some ⟨.features, some slice⟩ →
      ctx.run.ownsSlice ctx.relPath ⟨.features, some slice⟩ = false) :
    check files ctx = .ok [] := by
  unfold check
  split
  · rename_i slice hc
    rw [if_neg (by rw [h slice hc]; exact Bool.false_ne_true)]
  · rfl

theorem exists_missing_of_mem_check {files : List String} {ctx : FileContext} {fs : List Finding}
    (h : check files ctx = .ok fs) {f : Finding} (hf : f ∈ fs) : ∃ file, f = missing file := by
  by_cases howner : ∃ slice, ctx.coordinate = some ⟨.features, some slice⟩ ∧
      ctx.run.ownsSlice ctx.relPath ⟨.features, some slice⟩ = true
  · obtain ⟨slice, hc, howns⟩ := howner
    rw [check_of_owner ctx hc howns] at h
    cases hgroups : (expected files slice).mapM
        (checkFile ctx.run.view (sliceDirectory ctx.run slice)) with
    | error fault =>
      rw [hgroups] at h
      cases h
    | ok groups =>
      rw [hgroups] at h
      cases h
      obtain ⟨group, hgroup, hf⟩ := List.mem_flatten.1 hf
      obtain ⟨file, -, hfile⟩ := exists_of_mem_mapM hgroups hgroup
      rw [checkFile_eq] at hfile
      cases hthere : ctx.run.view.isFile
          (Path.below (sliceDirectory ctx.run slice) file) with
      | error fault =>
        rw [hthere] at hfile
        cases hfile
      | ok there =>
        rw [hthere] at hfile
        cases hfile
        cases there
        · exact ⟨file, List.mem_singleton.1 hf⟩
        · exact absurd hf List.not_mem_nil
  · have hnot : ∀ slice, ctx.coordinate = some ⟨.features, some slice⟩ →
        ctx.run.ownsSlice ctx.relPath ⟨.features, some slice⟩ = false := by
      intro slice hc
      by_contra howns
      exact howner ⟨slice, hc, eq_true_of_ne_false howns⟩
    rw [check_of_not_owner ctx hnot] at h
    cases h
    exact absurd hf List.not_mem_nil

/-- **Missing files.** When the disk answers, the owner of a slice reports the expected files that
are not there, in order and as often as they are expected. -/
theorem check_of_answers {files : List String} (ctx : FileContext) {slice : String}
    {there : String → Bool} (hview : ∀ p, ctx.run.view.isFile p = .ok (there p))
    (hc : ctx.coordinate = some ⟨.features, some slice⟩)
    (howns : ctx.run.ownsSlice ctx.relPath ⟨.features, some slice⟩ = true) :
    check files ctx = .ok (((expected files slice).filter fun file =>
      !there (Path.below (sliceDirectory ctx.run slice) file)).map missing) := by
  have hfile : ∀ file ∈ expected files slice,
      checkFile ctx.run.view (sliceDirectory ctx.run slice) file =
        .ok (if there (Path.below (sliceDirectory ctx.run slice) file) then [] else
          [missing file]) := by
    intro file _
    rw [checkFile_eq, hview]
    rfl
  rw [check_of_owner ctx hc howns, mapM_eq_ok_map hfile]
  show Except.ok _ = _
  congr 1
  clear hfile
  induction expected files slice with
  | nil => rfl
  | cons file rest ih =>
    rw [List.map_cons, List.flatten_cons, ih]
    cases hthere : there (Path.below (sliceDirectory ctx.run slice) file) <;>
      simp [hthere]

end SliceBaseline

end SliceLint
