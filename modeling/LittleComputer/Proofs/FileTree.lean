import LittleComputer.Command
import Mathlib.Tactic

/-! # Writing files

A file is written at the place that its path leads to. Other places keep what they hold, and other
paths lead where they did: a path runs through directories, and a file is never written over one.

* `FileTree.Takes`: a path that leads to a place for a file.
* `FileTree.node?_set`, `FileTree.Takes.set`: what a written file changes and what it does not.
* `Command.deliver_eq`: the files after several renderings are written in turn.
-/

namespace LittleComputer
set_option autoImplicit false

namespace FileTree
variable {tree : FileTree} {place : List Text}

/-- A path leads to a place where a file can be written: nothing stands there yet, or a file. -/
def Takes (tree : FileTree) (path : Path) (place : List Text) : Prop :=
  tree.resolve path.text = .ok place ∧ tree.node? place ≠ some .directory

theorem Takes.unique {path : Path} {other : List Text} (h : tree.Takes path place)
    (hother : tree.Takes path other) : other = place :=
  Except.ok.inj (hother.1.symm.trans h.1)

theorem node?_set (h : tree.node? place ≠ some .directory) (node : FileNode) (other : List Text) :
    (tree.set place node).node? other = if other = place then some node else tree.node? other := by
  by_cases hfixed : (other.all (· == above) || other == [['/']]) = true
  · have hother : other ≠ place := by
      rintro rfl
      exact h (if_pos hfixed)
    rw [if_neg hother, node?, node?, if_pos hfixed, if_pos hfixed]
  · rw [node?, node?, if_neg hfixed, if_neg hfixed, set]
    by_cases hother : other = place
    · simp [hother]
    · have hne : (place == other) = false := beq_eq_false_iff_ne.2 (Ne.symm hother)
      rw [if_neg hother, List.find?_cons_of_neg (by simpa using Ne.symm hother), List.find?_filter]
      congr 2
      funext entry
      by_cases hentry : entry.1 = other
      · simp [hentry, hother]
      · simp [hentry]

theorem follow_set (h : tree.node? place ≠ some .directory) (bytes : List UInt8)
    {start target parts : List Text} (hfollow : tree.follow start parts = .ok target) :
    (tree.set place (.file bytes)).follow start parts = .ok target := by
  induction parts generalizing start with
  | nil => exact hfollow
  | cons part rest ih =>
    cases hnode : tree.node? start with
    | none =>
      simp only [follow, hnode] at hfollow
      cases hfollow
    | some node =>
      cases node with
      | file contents =>
        simp only [follow, hnode] at hfollow
        cases hfollow
      | directory =>
        -- the written file is none of the directories on the way
        have hne : start ≠ place := by
          rintro rfl
          exact h hnode
        have hkept : (tree.set place (.file bytes)).node? start = some .directory := by
          rw [node?_set h, if_neg hne, hnode]
        simp only [follow, hnode] at hfollow
        simp only [follow, hkept]
        split_ifs at hfollow ⊢
        · exact ih hfollow
        · exact ih hfollow
        · exact ih hfollow

theorem resolve_set (h : tree.node? place ≠ some .directory) (bytes : List UInt8)
    {text : Text} {target : List Text} (hresolve : tree.resolve text = .ok target) :
    (tree.set place (.file bytes)).resolve text = .ok target := by
  unfold resolve at hresolve ⊢
  split at hresolve
  · cases hresolve
  · next hnull =>
    rw [if_neg hnull]
    split at hresolve
    · cases hresolve
    · next hlong =>
      rw [if_neg hlong]
      split at hresolve
      · cases hresolve
      · exact follow_set h bytes hresolve
      · exact follow_set h bytes hresolve

theorem Takes.set {path : Path} {target : List Text} (h : tree.Takes path target)
    (hplace : tree.node? place ≠ some .directory) (bytes : List UInt8) :
    (tree.set place (.file bytes)).Takes path target := by
  refine ⟨resolve_set hplace bytes h.1, ?_⟩
  rw [node?_set hplace]
  split
  · exact fun hfile => nomatch hfile
  · exact h.2

theorem Takes.write_eq {path : Path} (h : tree.Takes path place) (bytes : List UInt8) :
    tree.write path bytes = .ok (tree.set place (.file bytes)) := by
  simp only [write, h.1]
  split
  · next hdirectory => exact absurd hdirectory h.2
  · rfl

end FileTree

namespace Command

theorem deliver_cons {tree files : FileTree} {delivery : Delivery} {rest : List Delivery}
    {notes : List LogEntry} {place : List Text} (h : tree.Takes delivery.path place)
    (hrest : deliver (tree.set place (.file (Utf8.encode (fileText delivery.rendering)))) rest =
      (files, notes, none)) :
    deliver tree (delivery :: rest) =
      (files, ⟨.info, .command, delivery.note⟩ :: notes, none) := by
  simp only [deliver, h.write_eq, hrest]

/-- Renderings are written to distinct places in turn. Then every place holds its file, and all
other places are as they were. -/
theorem deliver_eq {tree : FileTree} {deliveries : List Delivery} {places : List (List Text)}
    (h : List.Forall₂ (fun delivery place => tree.Takes delivery.path place) deliveries places)
    (hdistinct : places.Nodup) :
    ∃ files notes, deliver tree deliveries = (files, notes, none) ∧
      (∀ delivery ∈ deliveries, ∀ place, tree.Takes delivery.path place →
        files.node? place = some (.file (Utf8.encode (fileText delivery.rendering)))) ∧
      ∀ place ∉ places, files.node? place = tree.node? place := by
  induction deliveries generalizing tree places with
  | nil =>
    cases h
    exact ⟨tree, [], rfl, by simp, fun _ _ => rfl⟩
  | cons delivery deliveries ih =>
    obtain ⟨place, places, htakes, hrest, rfl⟩ := List.forall₂_cons_left_iff.1 h
    obtain ⟨hfresh, hdistinct⟩ := List.nodup_cons.1 hdistinct
    have hnode := FileTree.node?_set htakes.2 (.file (Utf8.encode (fileText delivery.rendering)))
    obtain ⟨files, notes, hdeliver, hheld, hother⟩ := ih
      (hrest.imp fun _ _ hothers =>
        hothers.set htakes.2 (Utf8.encode (fileText delivery.rendering))) hdistinct
    refine ⟨files, _, deliver_cons htakes hdeliver, ?_, ?_⟩
    · intro later hlater target htarget
      rcases List.mem_cons.1 hlater with rfl | hlater
      · rw [htakes.unique htarget, hother place hfresh, hnode, if_pos rfl]
      · exact hheld later hlater target (htarget.set htakes.2 _)
    · intro other hnotmem
      rw [List.mem_cons, not_or] at hnotmem
      rw [hother other hnotmem.2, hnode, if_neg hnotmem.1]

end Command

end LittleComputer
