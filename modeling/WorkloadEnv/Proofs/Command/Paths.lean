import WorkloadEnv.Proofs.Command.Files
import Mathlib.Data.String.Basic

/-! # Where paths lead

    A path of plain names leads to what stands at the end of them, if there are
    directories on the way in which names may be looked up: from the root on, if
    the path starts there (`find_location`), and else from the working directory
    on (`find_relative`).  So each location is a path to itself, wherever the
    working directory is. -/

namespace WorkloadEnv.Command.FileTree

variable {t : FileTree} {name : String} {names ns : List String} {creating : Bool}
  {place : Place} {links : Nat}

/-- A name that can stand between slashes, and stands for an entry. -/
structure Plain (name : String) : Prop where
  ne_empty : name ≠ ""
  ne_dot : name ≠ "."
  ne_dots : name ≠ ".."
  noSlash : '/' ∉ name.toList
  short : name.utf8ByteSize ≤ 255

/-- All places on the way from a directory along some names are directories in which
    names may be looked up. -/
def Passable (t : FileTree) (ns names : List String) : Prop :=
  ∀ before name after, names = before ++ name :: after →
    t.refusal .search (location (ns ++ before)) = none ∧
    (before ≠ [] → Members.get? (location (ns ++ before)) t.entries = some .directory)

theorem Passable.tail (h : t.Passable ns (name :: names)) : t.Passable (ns ++ [name]) names := by
  intro before next after hnames
  have hlonger := h (name :: before) next after (by rw [hnames, List.cons_append])
  rw [List.append_assoc, List.singleton_append]
  exact ⟨hlonger.1, fun _ => hlonger.2 (List.cons_ne_nil _ _)⟩

/-! ## Following names -/

theorem lookup_of_plain (h : Plain name) : t.lookup ns name = t.targetAt (ns ++ [name]) := by
  unfold lookup
  rw [if_neg h.ne_dot, if_neg h.ne_dots, if_neg (Nat.not_lt.mpr h.short)]

theorem targetAt_of_directory (h : Members.get? (location ns) t.entries = some .directory) :
    t.targetAt ns = .ok (.place (.directory ns)) := by
  unfold targetAt
  rw [h]

theorem endsInSlash_of_plain (h : ∀ name ∈ names, Plain name) : endsInSlash names = false := by
  cases names with
  | nil => rfl
  | cons name names =>
    have hblank : name ≠ "" := (h name List.mem_cons_self).ne_empty
    simp [endsInSlash, hblank]

/-- A step to what stands at a plain name. -/
theorem Walks.of_plain {walked : Walk} (hplain : ∀ n ∈ name :: names, Plain n)
    (hsearch : t.refusal .search (location ns) = none)
    (htarget : t.targetAt (ns ++ [name]) = .ok (.place place))
    (rest : Walks t creating place names walked) :
    Walks t creating (.directory ns) (name :: names) walked := by
  have hname : Plain name := hplain name List.mem_cons_self
  rw [← lookup_of_plain hname] at htarget
  refine .place hname.ne_empty hsearch (fun _ => ?_) htarget rest
  exact endsInSlash_of_plain fun n hn => hplain n (List.mem_cons_of_mem _ hn)

/-- **Names are followed to what stands at the end of them.** -/
theorem Walks.of_passable (hplain : ∀ n ∈ names, Plain n) (hne : names ≠ [])
    (hpass : t.Passable ns names) (htarget : t.targetAt (ns ++ names) = .ok (.place place)) :
    Walks t creating (.directory ns) names (.arrived place) := by
  induction names generalizing ns with
  | nil => exact absurd rfl hne
  | cons name names ih =>
    have hsearch : t.refusal .search (location ns) = none := by
      have hfirst := (hpass [] name names rfl).1
      rwa [List.append_nil] at hfirst
    cases names with
    | nil => exact .of_plain hplain hsearch htarget (.nil place)
    | cons next names =>
      have hdirectory : t.targetAt (ns ++ [name]) = .ok (.place (.directory (ns ++ [name]))) :=
        targetAt_of_directory ((hpass [name] next names rfl).2 (List.cons_ne_nil _ _))
      apply Walks.of_plain hplain hsearch hdirectory
      refine ih (fun n hn => hplain n (List.mem_cons_of_mem _ hn)) (List.cons_ne_nil _ _)
        hpass.tail ?_
      rwa [List.append_assoc, List.singleton_append]

/-! ## Paths as texts -/

/-- A text that is short enough for a path, and has no character that none may have. -/
def IsPath (path : String) : Prop := '\x00' ∉ path.toList ∧ path.utf8ByteSize ≤ 4095

theorem namesOf_intercalate (hslash : ∀ n ∈ names, '/' ∉ n.toList) (hne : names ≠ []) :
    namesOf ("/".intercalate names) = names := by
  have hsplit : (['/'].intercalate (names.map String.toList)).splitOn '/' =
      names.map String.toList := by
    refine List.splitOn_intercalate '/' ?_ (by simpa using hne)
    intro cs hcs
    obtain ⟨n, hn, rfl⟩ := List.mem_map.mp hcs
    exact hslash n hn
  rw [namesOf, String.toList_intercalate]
  show ((['/'].intercalate (names.map String.toList)).splitOn '/').map String.ofList = names
  rw [hsplit, List.map_map]
  simp

/-- In front of the slash at the start of a location there is the empty name. -/
theorem namesOf_location (hslash : ∀ n ∈ names, '/' ∉ n.toList) (hne : names ≠ []) :
    namesOf (location names) = "" :: names := by
  have hlocation : location names = "/".intercalate ("" :: names) := by
    obtain ⟨n, ns, rfl⟩ := List.exists_cons_of_ne_nil hne
    rw [String.intercalate_cons_cons, String.empty_append]
    rfl
  rw [hlocation]
  refine namesOf_intercalate ?_ (List.cons_ne_nil _ _)
  intro n hn
  rcases List.mem_cons.mp hn with rfl | hn
  · simp
  · exact hslash n hn

/-- The first character of a path tells where it starts. -/
theorem startOf_of_isPath {path : String} {c : Char} (hpath : IsPath path)
    (hhead : path.toList.head? = some c) :
    startOf ns path = .ok (.directory (if c = '/' then [] else ns)) := by
  have hne : path ≠ "" := by
    rintro rfl
    cases hhead
  unfold startOf
  rw [if_neg hne, if_neg (by simpa using hpath.1), if_neg (Nat.not_lt.mpr hpath.2), hhead]
  simp

/-- The first character of some names belongs to the first name. -/
theorem head?_intercalate (hplain : ∀ n ∈ names, Plain n) (hne : names ≠ []) :
    ∃ c, ("/".intercalate names).toList.head? = some c ∧ c ≠ '/' := by
  obtain ⟨n, rest, rfl⟩ := List.exists_cons_of_ne_nil hne
  have hn : Plain n := hplain n List.mem_cons_self
  obtain ⟨c, cs, hcs⟩ := List.exists_cons_of_ne_nil (String.toList_eq_nil_iff.not.mpr hn.ne_empty)
  refine ⟨c, ?_, ?_⟩
  · cases rest with
    | nil => simp [hcs]
    | cons next rest => simp [String.intercalate_cons_cons, String.toList_append, hcs]
  · rintro rfl
    exact hn.noSlash (by simp [hcs])

/-! ## Where they lead -/

/-- **A location is a path to what stands at it.** -/
theorem find_location (hplain : ∀ n ∈ names, Plain n) (hne : names ≠ [])
    (hpath : IsPath (location names)) (hpass : t.Passable [] names)
    (htarget : t.targetAt names = .ok (.place place)) :
    t.find creating (location names) = .ok place := by
  have hslash : ∀ n ∈ names, '/' ∉ n.toList := fun n hn => (hplain n hn).noSlash
  have hstart : startOf t.workingDirectory (location names) = .ok (.directory []) := by
    have hhead : (location names).toList.head? = some '/' := by
      rw [location, String.toList_append]
      rfl
    exact startOf_of_isPath hpath hhead
  refine find_eq_ok_iff.mpr ⟨_, hstart, ?_⟩
  rw [namesOf_location hslash hne]
  exact .arrived (.blank (.of_passable hplain hne hpass htarget))

/-- **Other paths lead on from the working directory.** -/
theorem find_relative (hplain : ∀ n ∈ names, Plain n) (hne : names ≠ [])
    (hpath : IsPath ("/".intercalate names)) (hpass : t.Passable t.workingDirectory names)
    (htarget : t.targetAt (t.workingDirectory ++ names) = .ok (.place place)) :
    t.find creating ("/".intercalate names) = .ok place := by
  have hslash : ∀ n ∈ names, '/' ∉ n.toList := fun n hn => (hplain n hn).noSlash
  have hstart : startOf t.workingDirectory ("/".intercalate names) =
      .ok (.directory t.workingDirectory) := by
    obtain ⟨c, hhead, hc⟩ := head?_intercalate hplain hne
    rw [startOf_of_isPath hpath hhead, if_neg hc]
  refine find_eq_ok_iff.mpr ⟨_, hstart, ?_⟩
  rw [namesOf_intercalate hslash hne]
  exact .arrived (.of_passable hplain hne hpass htarget)

end WorkloadEnv.Command.FileTree
