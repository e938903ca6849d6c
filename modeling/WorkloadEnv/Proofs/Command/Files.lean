import WorkloadEnv.Command.Files
import WorkloadEnv.Proofs.Json.Members
import WorkloadEnv.Proofs.Decode.Record

/-! # Setting the content of one file

    How a path is followed is told by two relations, one for the names up to a
    link (`Walks`) and one for all links (`Follows`).  What holds of all paths is
    proved by induction on them.

    A path is followed through the entries there are, so setting a file can
    change where paths lead: what was free becomes a file.  All paths that led
    somewhere still do, to the same place or to that file (`find_putFile`). -/

namespace WorkloadEnv.Command.FileTree

variable {t : FileTree} {l path name : String} {content : ByteArray} {creating : Bool}
  {place r : Place} {names ns : List String} {links : Nat} {walked : Walk}

/-! ## Entries -/

theorem content?_eq_some_iff :
    t.content? l = some content ↔ Members.get? l t.entries = some (.file content) := by
  unfold content?
  split
  · next heq => simp [heq]
  · next hne =>
    constructor
    · intro h
      cases h
    · intro h
      exact absurd h (hne content)

theorem permit_eq_ok_iff {access : Access} :
    t.permit access l = .ok () ↔ t.refusal access l = none := by
  unfold permit
  cases t.refusal access l <;> simp

/-- What needs a permission happens exactly if it is permitted. -/
theorem permit_bind_eq_ok_iff {α : Type} {access : Access} {next : Unit → Except FileError α}
    {a : α} :
    (t.permit access l >>= next) = .ok a ↔ t.refusal access l = none ∧ next () = .ok a := by
  rw [bind_eq_ok_iff]
  constructor
  · rintro ⟨_, hpermit, hnext⟩
    exact ⟨permit_eq_ok_iff.mp hpermit, hnext⟩
  · rintro ⟨hrefusal, hnext⟩
    exact ⟨(), permit_eq_ok_iff.mpr hrefusal, hnext⟩

theorem get?_putFile_ne {other : String} (h : other ≠ l) :
    Members.get? other (t.putFile l content).entries = Members.get? other t.entries :=
  Members.get?_put_ne h _

@[simp] theorem content?_putFile_self : (t.putFile l content).content? l = some content :=
  content?_eq_some_iff.mpr (Members.get?_put_self _)

theorem content?_putFile_ne {other : String} (h : other ≠ l) :
    (t.putFile l content).content? other = t.content? other := by
  unfold content?
  rw [get?_putFile_ne h]

@[simp] theorem putFile_putFile (content' : ByteArray) :
    (t.putFile l content').putFile l content = t.putFile l content := by
  simp [putFile]

/-- What is written to an empty file is all that it holds. -/
@[simp] theorem appendFile_putFile_empty (bytes : ByteArray) :
    (t.putFile l ByteArray.empty).appendFile l bytes = t.putFile l bytes := by
  simp [appendFile]

/-! ## Following paths -/

/-- From a place some names lead to their end, or up to a link. -/
inductive Walks (t : FileTree) (creating : Bool) : Place → List String → Walk → Prop where
  | nil (place : Place) : Walks t creating place [] (.arrived place)
  /-- Between two slashes nothing is asked for. -/
  | blank {ns names : List String} {walked : Walk}
      (rest : Walks t creating (.directory ns) names walked) :
      Walks t creating (.directory ns) ("" :: names) walked
  | place {ns names : List String} {name : String} {next : Place} {walked : Walk}
      (hname : name ≠ "")
      (search : t.refusal .search (location ns) = none)
      (slash : creating = true → endsInSlash names = false)
      (target : t.lookup ns name = .ok (.place next)) (rest : Walks t creating next names walked) :
      Walks t creating (.directory ns) (name :: names) walked
  | link {ns names : List String} {name path : String} (hname : name ≠ "")
      (search : t.refusal .search (location ns) = none)
      (slash : creating = true → endsInSlash names = false)
      (target : t.lookup ns name = .ok (.link path)) :
      Walks t creating (.directory ns) (name :: names) (.redirected ns path names)

/-- From a place some names lead to another one, through at most so many links. -/
inductive Follows (t : FileTree) (creating : Bool) (r : Place) :
    Nat → Place → List String → Prop where
  | arrived {links : Nat} {place : Place} {names : List String}
      (walks : Walks t creating place names (.arrived r)) : Follows t creating r links place names
  | redirected {links : Nat} {place start : Place} {names here rest : List String} {target : String}
      (walks : Walks t creating place names (.redirected here target rest))
      (hstart : startOf here target = .ok start)
      (follows : Follows t creating r links start (namesOf target ++ rest)) :
      Follows t creating r (links + 1) place names

theorem Walks.of_walk (h : t.walk creating place names = .ok walked) :
    Walks t creating place names walked := by
  induction names generalizing place with
  | nil =>
    unfold walk at h
    cases h
    exact .nil place
  | cons name names ih =>
    cases place with
    | directory ns =>
      rw [walk] at h
      split at h
      · next hblank =>
        subst hblank
        exact .blank (ih h)
      · next hblank =>
        obtain ⟨hsearch, h⟩ := permit_bind_eq_ok_iff.mp h
        split at h
        · cases h
        · next hslash =>
          have hslash' : creating = true → endsInSlash names = false := by simpa using hslash
          obtain ⟨target, htarget, h⟩ := bind_eq_ok_iff.mp h
          cases target with
          | place next => exact .place hblank hsearch hslash' htarget (ih h)
          | link path =>
            cases h
            exact .link hblank hsearch hslash' htarget
    | file l => cases h
    | free l => cases h

theorem Walks.walk_eq (h : Walks t creating place names walked) :
    t.walk creating place names = .ok walked := by
  have hguard : ∀ names, (creating = true → endsInSlash names = false) →
      (creating && endsInSlash names) = false := by
    intro names hslash
    cases creating with
    | false => rfl
    | true => exact hslash rfl
  induction h with
  | nil place =>
    unfold walk
    rfl
  | blank rest ih => rw [walk, if_pos rfl, ih]
  | place hname search slash target rest ih =>
    rw [walk, if_neg hname, permit_eq_ok_iff.mpr search, hguard _ slash, target]
    exact ih
  | link hname search slash target =>
    rw [walk, if_neg hname, permit_eq_ok_iff.mpr search, hguard _ slash, target]
    rfl

/-- **A path is followed as the relation says.** -/
theorem follow_eq_ok_iff :
    t.follow creating links place names = .ok r ↔ Follows t creating r links place names := by
  constructor
  · intro h
    -- behind a link there is one less to follow, and other names
    induction links generalizing place names with
    | zero =>
      rw [follow] at h
      obtain ⟨walked, hwalk, h⟩ := bind_eq_ok_iff.mp h
      cases walked with
      | arrived place =>
        cases h
        exact .arrived (.of_walk hwalk)
      | redirected here target rest => cases h
    | succ links ih =>
      rw [follow] at h
      obtain ⟨walked, hwalk, h⟩ := bind_eq_ok_iff.mp h
      cases walked with
      | arrived place =>
        cases h
        exact .arrived (.of_walk hwalk)
      | redirected here target rest =>
        obtain ⟨start, hstart, h⟩ := bind_eq_ok_iff.mp h
        exact .redirected (.of_walk hwalk) hstart (ih h)
  · intro h
    induction h with
    | arrived walks =>
      rw [follow, walks.walk_eq]
      rfl
    | redirected walks hstart follows ih =>
      rw [follow]
      refine bind_eq_ok_iff.mpr ⟨_, walks.walk_eq, ?_⟩
      exact bind_eq_ok_iff.mpr ⟨_, hstart, ih⟩

theorem find_eq_ok_iff :
    t.find creating path = .ok r ↔ ∃ start, startOf t.workingDirectory path = .ok start ∧
      Follows t creating r linkLimit start (namesOf path) := by
  unfold find
  simp only [bind_eq_ok_iff, follow_eq_ok_iff]

/-! ## Places of a tree -/

/-- A place says what there is in the tree. -/
def Coherent (t : FileTree) : Place → Prop
  | .directory _ => True
  | .file l => ∃ content, t.content? l = some content
  | .free l => Members.get? l t.entries = none

theorem coherent_targetAt (h : t.targetAt names = .ok (.place r)) : t.Coherent r := by
  unfold targetAt at h
  split at h
  · next hnone =>
    cases h
    exact hnone
  · cases h
    trivial
  · next hfile =>
    cases h
    exact ⟨_, content?_eq_some_iff.mpr hfile⟩
  · split at h
    · next hcontent =>
      cases h
      exact Option.isSome_iff_exists.mp hcontent
    · cases h
  · cases h

theorem coherent_lookup (h : t.lookup names name = .ok (.place r)) : t.Coherent r := by
  unfold lookup at h
  split_ifs at h
  · cases h
    trivial
  · cases h
    trivial
  · exact coherent_targetAt h

theorem Walks.coherent (h : Walks t creating place names walked) (hplace : t.Coherent place)
    (hr : walked = .arrived r) : t.Coherent r := by
  induction h with
  | nil place =>
    cases hr
    exact hplace
  | blank rest ih => exact ih hplace hr
  | place hname search slash target rest ih => exact ih (coherent_lookup target) hr
  | link hname search slash target => cases hr

theorem startOf_eq_directory (h : startOf names path = .ok place) :
    ∃ ns, place = .directory ns := by
  unfold startOf at h
  split_ifs at h <;> cases h <;> exact ⟨_, rfl⟩

theorem coherent_startOf (h : startOf names path = .ok place) : t.Coherent place := by
  obtain ⟨ns, rfl⟩ := startOf_eq_directory h
  trivial

theorem Follows.coherent (h : Follows t creating r links place names)
    (hplace : t.Coherent place) : t.Coherent r := by
  induction h with
  | arrived walks => exact walks.coherent hplace rfl
  | redirected walks hstart follows ih => exact ih (coherent_startOf hstart)

/-- Where a path leads, there is what the place says. -/
theorem coherent_find (h : t.find creating path = .ok r) : t.Coherent r := by
  obtain ⟨start, hstart, hfollows⟩ := find_eq_ok_iff.mp h
  exact hfollows.coherent (coherent_startOf hstart)

/-! ## Paths in a tree with one file set -/

/-- A place once there is a file at the location. -/
def Place.withFile (l : String) : Place → Place
  | .free other => if other = l then .file other else .free other
  | place => place

def Target.withFile (l : String) : Target → Target
  | .place place => .place (place.withFile l)
  | .link path => .link path

def Walk.withFile (l : String) : Walk → Walk
  | .arrived place => .arrived (place.withFile l)
  | .redirected names path rest => .redirected names path rest

/-- A location at which a file can stand: there is one, or nothing. -/
def Open (t : FileTree) (l : String) : Prop :=
  Members.get? l t.entries = none ∨ ∃ content, t.content? l = some content

theorem isSome_content?_putFile {other : String} (h : (t.content? other).isSome) :
    ((t.putFile l content).content? other).isSome := by
  by_cases hl : other = l
  · rw [hl, content?_putFile_self]
    rfl
  · rwa [content?_putFile_ne hl]

theorem targetAt_putFile {target : Target} (hl : t.Open l) (h : t.targetAt names = .ok target) :
    (t.putFile l content).targetAt names = .ok (target.withFile l) := by
  unfold targetAt at h ⊢
  by_cases hself : location names = l
  · -- this is the file that is set
    have hset : Members.get? l (t.putFile l content).entries = some (.file content) :=
      Members.get?_put_self _
    rw [hself] at h ⊢
    rw [hset]
    rcases hl with hnone | ⟨old, hold⟩
    · rw [hnone] at h
      cases h
      simp [Target.withFile, Place.withFile]
    · rw [content?_eq_some_iff.mp hold] at h
      cases h
      rfl
  · rw [get?_putFile_ne hself]
    split at h
    · cases h
      simp [Target.withFile, Place.withFile, hself]
    · cases h
      rfl
    · cases h
      rfl
    · -- a name of a file, which may be the one that is set
      split at h
      · next hcontent =>
        cases h
        rw [if_pos (isSome_content?_putFile hcontent)]
        rfl
      · cases h
    · cases h
      rfl

theorem lookup_putFile {target : Target} (hl : t.Open l) (h : t.lookup names name = .ok target) :
    (t.putFile l content).lookup names name = .ok (target.withFile l) := by
  unfold lookup at h ⊢
  split_ifs at h ⊢
  · cases h
    rfl
  · cases h
    rfl
  · exact targetAt_putFile hl h

/-- On the way to where names lead there are directories only, and none of them
    becomes a file. -/
theorem Walks.putFile (hl : t.Open l) (h : Walks t creating place names walked) :
    Walks (t.putFile l content) creating (place.withFile l) names (walked.withFile l) := by
  induction h with
  | nil place => exact .nil _
  | blank rest ih => exact .blank ih
  | place hname search slash target rest ih =>
    exact .place hname search slash (lookup_putFile hl target) ih
  | link hname search slash target => exact .link hname search slash (lookup_putFile hl target)

theorem withFile_of_startOf (h : startOf names path = .ok place) : place.withFile l = place := by
  obtain ⟨ns, rfl⟩ := startOf_eq_directory h
  rfl

theorem Follows.putFile (hl : t.Open l) (h : Follows t creating r links place names) :
    Follows (t.putFile l content) creating (r.withFile l) links (place.withFile l) names := by
  induction h with
  | arrived walks => exact .arrived (walks.putFile hl)
  | redirected walks hstart follows ih =>
    -- a link leads on from a directory, and that stays what it is
    rw [withFile_of_startOf hstart] at ih
    exact .redirected (walks.putFile hl) hstart ih

/-- **Where paths lead once a file is set.** -/
theorem find_putFile (hl : t.Open l) (h : t.find creating path = .ok r) :
    (t.putFile l content).find creating path = .ok (r.withFile l) := by
  obtain ⟨start, hstart, hfollows⟩ := find_eq_ok_iff.mp h
  refine find_eq_ok_iff.mpr ⟨start, hstart, ?_⟩
  rw [← withFile_of_startOf (l := l) hstart]
  exact hfollows.putFile hl

end WorkloadEnv.Command.FileTree
