import WorkloadEnv.Proofs.Command.Files

/-! # Opening files

    A path is followed in the same way for reading and for creating, to the same
    file or the same free place (`find_creating_iff`).  The two differ only in
    what they say of a path with a slash at its end, which never leads to either.

    So it is known when a file is read (`openFile_eq_ok_iff`) and when one is
    opened for writing (`createFile_eq_ok_iff`), by where the path leads and what
    the system permits there; and what was created at a path is found by that
    path (`find_putFile_of_createFile`). -/

namespace WorkloadEnv.Command.FileTree

variable {t : FileTree} {l path : String} {content : ByteArray} {creating : Bool}
  {place r : Place} {names : List String} {links : Nat} {walked : Walk}

/-! ## A slash at the end -/

theorem getLast?_of_endsInSlash (h : endsInSlash names = true) : names.getLast? = some "" := by
  have hall : names ≠ [] ∧ ∀ name ∈ names, name = "" := by simpa [endsInSlash] using h
  rw [List.getLast?_eq_some_getLast hall.1, hall.2 _ (List.getLast_mem hall.1)]

/-- The last name is the one given, or one of those behind it. -/
theorem getLast?_cons_cases {name : String} (h : (name :: names).getLast? = some "") :
    names = [] ∧ name = "" ∨ names.getLast? = some "" := by
  cases names with
  | nil => exact .inl ⟨rfl, Option.some.inj h⟩
  | cons next names => exact .inr (by simpa [List.getLast?_cons_cons] using h)

/-- Names that end in a blank lead to a directory, or to a link with such names behind it. -/
def Walk.Blank : Walk → Prop
  | .arrived place => ∃ ns, place = .directory ns
  | .redirected _ _ rest => rest.getLast? = some ""

theorem Walks.blank_of_slash (h : Walks t creating place names walked)
    (hslash : names.getLast? = some "") : walked.Blank := by
  induction h with
  | nil place => cases hslash
  | blank rest ih =>
    rcases getLast?_cons_cases hslash with ⟨rfl, -⟩ | hlast
    · -- the blank at the end stays in the directory
      cases rest
      exact ⟨_, rfl⟩
    · exact ih hlast
  | place hname search slash target rest ih =>
    rcases getLast?_cons_cases hslash with ⟨-, hblank⟩ | hlast
    · exact absurd hblank hname
    · exact ih hlast
  | link hname search slash target =>
    rcases getLast?_cons_cases hslash with ⟨-, hblank⟩ | hlast
    · exact absurd hblank hname
    · exact hlast

theorem Follows.directory_of_slash (h : Follows t creating r links place names)
    (hslash : names.getLast? = some "") : ∃ ns, r = .directory ns := by
  induction h with
  | arrived walks => exact walks.blank_of_slash hslash
  | redirected walks hstart follows ih =>
    have hrest := walks.blank_of_slash hslash
    apply ih
    rw [List.getLast?_append, hrest]
    rfl

/-! ## Reading and creating -/

/-- What is followed for creating is followed for reading as well. -/
theorem Walks.forReading (h : Walks t true place names walked) :
    Walks t false place names walked := by
  induction h with
  | nil place => exact .nil place
  | blank rest ih => exact .blank ih
  | place hname search slash target rest ih => exact .place hname search nofun target ih
  | link hname search slash target => exact .link hname search nofun target

/-- What is followed for reading is followed for creating, unless it ends in a slash. -/
theorem Walks.forCreating (h : Walks t false place names walked)
    (hlast : names.getLast? ≠ some "") : Walks t true place names walked := by
  -- names that do not end in a blank have none at their end further on either
  have htail : ∀ {name : String} {names : List String},
      (name :: names).getLast? ≠ some "" → names.getLast? ≠ some "" := by
    intro name names hne hnames
    apply hne
    rw [List.getLast?_cons, hnames]
    rfl
  have hguard : ∀ {names : List String}, names.getLast? ≠ some "" → endsInSlash names = false := by
    intro names hne
    by_contra hends
    exact hne (getLast?_of_endsInSlash (by simpa using hends))
  induction h with
  | nil place => exact .nil place
  | blank rest ih => exact .blank (ih (htail hlast))
  | place hname search slash target rest ih =>
    exact .place hname search (fun _ => hguard (htail hlast)) target (ih (htail hlast))
  | link hname search slash target =>
    exact .link hname search (fun _ => hguard (htail hlast)) target

theorem Follows.forReading (h : Follows t true r links place names) :
    Follows t false r links place names := by
  induction h with
  | arrived walks => exact .arrived walks.forReading
  | redirected walks hstart follows ih => exact .redirected walks.forReading hstart ih

theorem Follows.forCreating (h : Follows t false r links place names)
    (hr : ∀ ns, r ≠ .directory ns) : Follows t true r links place names := by
  have hlast : names.getLast? ≠ some "" := by
    intro hslash
    obtain ⟨ns, hns⟩ := h.directory_of_slash hslash
    exact hr ns hns
  induction h with
  | arrived walks => exact .arrived (walks.forCreating hlast)
  | redirected walks hstart follows ih =>
    refine .redirected (walks.forCreating hlast) hstart (ih ?_)
    -- the path of a link can end in a slash too, but not on the way to no directory
    intro hslash
    obtain ⟨ns, hns⟩ := follows.directory_of_slash hslash
    exact hr ns hns

/-- **Reading and creating follow a path to the same place**, if that is no directory. -/
theorem find_creating_iff (hr : ∀ ns, r ≠ .directory ns) :
    t.find true path = .ok r ↔ t.find false path = .ok r := by
  simp only [find_eq_ok_iff]
  constructor
  · rintro ⟨start, hstart, hfollows⟩
    exact ⟨start, hstart, hfollows.forReading⟩
  · rintro ⟨start, hstart, hfollows⟩
    exact ⟨start, hstart, hfollows.forCreating hr⟩

/-! ## What is opened -/

/-- A path is read as a file exactly if it leads to one, and both steps are permitted. -/
theorem openFile_eq_ok_iff :
    t.openFile path = .ok (.ok content) ↔ ∃ l, t.find false path = .ok (.file l) ∧
      t.refusal .opening l = none ∧ t.refusal .reading l = none ∧
      t.content? l = some content := by
  unfold openFile
  rw [bind_eq_ok_iff]
  constructor
  · rintro ⟨place, hfind, h⟩
    cases place with
    | directory ns =>
      obtain ⟨-, h⟩ := permit_bind_eq_ok_iff.mp h
      cases h
    | file l =>
      obtain ⟨hopening, h⟩ := permit_bind_eq_ok_iff.mp h
      obtain ⟨hreading, h⟩ := permit_bind_eq_ok_iff.mp (Except.ok.inj h)
      obtain ⟨held, hheld⟩ := coherent_find hfind
      rw [hheld] at h
      cases h
      exact ⟨l, hfind, hopening, hreading, hheld⟩
    | free l => cases h
  · rintro ⟨l, hfind, hopening, hreading, hcontent⟩
    refine ⟨.file l, hfind, permit_bind_eq_ok_iff.mpr ⟨hopening, congrArg Except.ok ?_⟩⟩
    refine permit_bind_eq_ok_iff.mpr ⟨hreading, ?_⟩
    rw [hcontent]
    rfl

/-- A path is opened for writing exactly if it leads to a file that may be written, or
    to a place where one may be created. -/
theorem createFile_eq_ok_iff :
    t.createFile path = .ok l ↔
      t.find false path = .ok (.file l) ∧ t.refusal .writing l = none ∨
      t.find false path = .ok (.free l) ∧ t.refusal .creation l = none := by
  have hfile : t.find true path = .ok (.file l) ↔ t.find false path = .ok (.file l) :=
    find_creating_iff fun _ => Place.noConfusion
  have hfree : t.find true path = .ok (.free l) ↔ t.find false path = .ok (.free l) :=
    find_creating_iff fun _ => Place.noConfusion
  rw [← hfile, ← hfree]
  unfold createFile
  rw [bind_eq_ok_iff]
  constructor
  · rintro ⟨place, hfind, h⟩
    cases place with
    | directory ns => cases h
    | file other =>
      obtain ⟨hwriting, h⟩ := permit_bind_eq_ok_iff.mp h
      cases h
      exact .inl ⟨hfind, hwriting⟩
    | free other =>
      obtain ⟨hcreation, h⟩ := permit_bind_eq_ok_iff.mp h
      cases h
      exact .inr ⟨hfind, hcreation⟩
  · rintro (⟨hfind, hwriting⟩ | ⟨hfind, hcreation⟩)
    · exact ⟨_, hfind, permit_bind_eq_ok_iff.mpr ⟨hwriting, rfl⟩⟩
    · exact ⟨_, hfind, permit_bind_eq_ok_iff.mpr ⟨hcreation, rfl⟩⟩

/-- The location that a path creates is open, and the path leads to it afterwards. -/
theorem find_putFile_of_createFile (h : t.createFile path = .ok l) :
    (t.putFile l content).find false path = .ok (.file l) := by
  rcases createFile_eq_ok_iff.mp h with ⟨hfind, -⟩ | ⟨hfind, -⟩
  · exact find_putFile (.inr (coherent_find hfind)) hfind
  · have hfile : (Place.free l).withFile l = .file l := if_pos rfl
    rw [find_putFile (.inl (coherent_find hfind)) hfind, hfile]

end WorkloadEnv.Command.FileTree
