import Mathlib.Tactic

/-! Paths as texts: the names between the separators, and the directories that a walk along them
passes. Nothing is looked up, so a link counts as the directory it is. -/

namespace DagScheduler.Library.Paths

def here : List Char := ['.']

def up : List Char := ['.', '.']

/-- One name, from the directory whose names are `dir`. -/
def enter (dir : List (List Char)) (name : List Char) : List (List Char) :=
  if name = [] ∨ name = here then dir
  else if name = up then dir.dropLast
  else dir ++ [name]

def walk (dir : List (List Char)) (path : List Char) : List (List Char) := (path.splitOn '/').foldl enter dir

/-- A path that starts with a separator starts at the root, any other at `cwd`. -/
def locate (cwd : List (List Char)) (path : List Char) : List (List Char) :=
  walk (if path.head? = some '/' then [] else cwd) path

variable {dir : List (List Char)} {name p q : List Char} {names : List (List Char)}

lemma enter_below (h : name ≠ up) : dir <+: enter dir name := by
  unfold enter
  split_ifs
  · exact List.prefix_refl _
  · exact List.prefix_append _ _

lemma foldl_enter_below (h : up ∉ names) : dir <+: names.foldl enter dir := by
  induction names generalizing dir with
  | nil => exact List.prefix_refl _
  | cons name names ih =>
    obtain ⟨hname, hnames⟩ : up ≠ name ∧ up ∉ names := by simpa using h
    exact (enter_below hname.symm).trans (ih hnames)

lemma infix_intercalate (sep : List Char) (h : name ∈ names) : name <:+: sep.intercalate names := by
  induction names with
  | nil => exact absurd h List.not_mem_nil
  | cons first names ih =>
    cases names with
    | nil =>
      rw [List.mem_singleton.mp h, List.intercalate_singleton]
    | cons second names =>
      rw [List.intercalate_cons_cons]
      rcases List.mem_cons.mp h with rfl | h
      · exact ((List.prefix_append _ _).trans (List.prefix_append _ _)).isInfix
      · exact (ih h).trans (List.suffix_append _ _).isInfix

lemma infix_of_mem_splitOn (h : name ∈ p.splitOn '/') : name <:+: p := by
  have hjoin : ['/'].intercalate (p.splitOn '/') = p := List.intercalate_splitOn '/'
  rw [← hjoin]
  exact infix_intercalate _ h

lemma walk_append (dir : List (List Char)) (p q : List Char) :
    walk dir (p ++ '/' :: q) = walk (walk dir p) q := by
  rw [walk, List.splitOn_append_cons_self, List.foldl_append]
  rfl

/-- What follows a separator without the name for one level up stays below. -/
lemma walk_below (h : ¬ up <:+: q) : walk dir p <+: walk dir (p ++ '/' :: q) := by
  rw [walk_append]
  exact foldl_enter_below fun hmem => h (infix_of_mem_splitOn hmem)

variable {cwd : List (List Char)}

/-- A separator at the end names no other directory. -/
lemma locate_separated (h : ¬ up <:+: q) : locate cwd (p ++ ['/']) <+: locate cwd (p ++ '/' :: q) := by
  have hhead : (p ++ '/' :: q).head? = (p ++ ['/']).head? := by cases p <;> rfl
  have hend (dir : List (List Char)) : walk dir (p ++ ['/']) = walk dir p := by
    rw [walk_append, walk, List.splitOn_nil]
    simp [enter]
  rw [locate, locate, hhead, hend]
  exact walk_below h

lemma locate_below (hp : p ≠ []) (h : ¬ up <:+: q) : locate cwd p <+: locate cwd (p ++ '/' :: q) := by
  have hhead : (p ++ '/' :: q).head? = p.head? := by
    cases p with
    | nil => exact absurd rfl hp
    | cons => rfl
  rw [locate, locate, hhead]
  exact walk_below h

end DagScheduler.Library.Paths
