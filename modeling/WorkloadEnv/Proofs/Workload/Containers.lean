import WorkloadEnv.Proofs.EnvVar.WriteBack

/-! # Containers and the values they were read from

    A typed container and its raw value stay aligned: the entries of the raw
    value read as the typed environment (`Container.Reads.entries`), one for
    one, and what is written over the raw value reads as the changed container
    (`Container.Reads.writeOver`).  The same is then shown for the lists of
    containers of a pod spec (`PodSpec.read_writeOver`). -/

namespace WorkloadEnv

open Kubernetes

variable {j n x : Json} {ms : Members Json} {name : String} {o : List EnvVar}

/-! ## Lists of parts -/

/-- Values that each read as a part read as a list of those parts. -/
theorem exists_forall₂_map {α β γ : Type} {R : α → β → Prop} {view : β → γ} {as : List α}
    {cs : List γ} :
    List.Forall₂ (fun a c => ∃ b, R a b ∧ view b = c) as cs ↔
      ∃ bs, List.Forall₂ R as bs ∧ bs.map view = cs := by
  constructor
  · intro h
    induction h with
    | nil => exact ⟨[], .nil, rfl⟩
    | cons hb _ ih =>
      obtain ⟨b, hb, rfl⟩ := hb
      obtain ⟨bs, hbs, rfl⟩ := ih
      exact ⟨b :: bs, .cons hb hbs, rfl⟩
  · rintro ⟨bs, hbs, rfl⟩
    rw [List.forall₂_map_right_iff]
    exact hbs.imp fun _ b hb => ⟨b, hb, rfl⟩

/-- **A list member and its raw items are aligned.**  The raw items are exactly
    those that were read, also where the member is absent or null. -/
theorem Shape.HasMember.forall₂_itemsAt {s item : Shape} {presence : Presence}
    (hp : s.HasMember name (presence, .list item)) (hs : Members.Sorted ms)
    (h : s.read (Json.object ms) = .ok n) :
    List.Forall₂ (fun j n => item.read j = .ok n) ((Json.object ms).itemsAt name)
      (n.itemsAt name) := by
  rcases hp.read_cases hs h with ⟨x, m, hx, -, hm, hget⟩ | ⟨habs, hget⟩
  · obtain ⟨js, ns, rfl, rfl, hall⟩ := Shape.read_list_iff.mp hm
    rw [Json.itemsAt_of_get? (j := .object ms) hx, Json.itemsAt_of_get? hget]
    exact hall
  · -- a list that is absent is read as none or as an empty one
    have hnone : n.itemsAt name = [] := by
      rw [Json.itemsAt, hget]
      cases presence <;> rfl
    rw [Json.itemsAt_of_absent (j := .object ms) habs, hnone]
    exact .nil

/-! ## One container -/

namespace Container

theorem hasMember_env : container.HasMember "env" (.optional, .list envVar) :=
  ⟨_, _, _, rfl, by decide, rfl⟩

/-- The value reads as the container. -/
def Reads (j : Json) (c : Container) : Prop := ∃ n, container.read j = .ok n ∧ ofNormal n = c

variable {c : Container} {es : List EnvVar}

theorem env_ofNormal (n : Json) :
    (ofNormal n).env.getD [] = (n.itemsAt "env").map EnvVar.ofNormal := by
  show ((n.get? "env").map fun env => env.items.map EnvVar.ofNormal).getD [] = _
  rw [Json.itemsAt]
  cases n.get? "env" <;> rfl

theorem ofNormal_put (ns : Members Json) (m : Json) :
    ofNormal (.object (Members.put "env" m ns)) =
      { ofNormal (.object ns) with env := some (m.items.map EnvVar.ofNormal) } := by
  simp [ofNormal, Json.members]

theorem Reads.object (h : Reads j c) : ∃ ms, j = .object ms := by
  obtain ⟨n, hn, -⟩ := h
  exact hasMember_env.object hn

/-- The raw entries read as the typed environment. -/
theorem Reads.entries (h : Reads j c) (hj : j.Ordered) :
    EnvVar.ReadsAll (j.itemsAt "env") (c.env.getD []) := by
  obtain ⟨n, hn, rfl⟩ := h
  obtain ⟨ms, rfl⟩ := hasMember_env.object hn
  rw [env_ofNormal, EnvVar.ReadsAll]
  simp only [EnvVar.read_eq_ok_iff]
  exact exists_forall₂_map.mpr ⟨_, hasMember_env.forall₂_itemsAt hj.sorted hn, rfl⟩

/-- **What is written over the value reads as the container with that environment**,
    if the environment is not shorter than the one that was read. -/
theorem Reads.writeOver (h : Reads j c) (hj : j.Ordered) (hes : (c.env.getD []).length ≤ es.length) :
    Reads (({ c with env := some es } : Container).writeOver j) { c with env := some es } := by
  -- as many entries are there as were read, so none is left over behind the new ones
  have hlength := (h.entries hj).length_eq
  obtain ⟨ms, rfl⟩ := h.object
  obtain ⟨n, hn, rfl⟩ := h
  obtain ⟨ns, rfl, -⟩ := hasMember_env.sorted hj.sorted hn
  -- the entries that are written read as the environment
  have hentries : EnvVar.ReadsAll (EnvVar.writeOver es ((Json.object ms).itemsAt "env")) es :=
    EnvVar.read_writeOver (hlength ▸ hes)
  unfold EnvVar.ReadsAll at hentries
  simp only [EnvVar.read_eq_ok_iff] at hentries
  obtain ⟨ns', hns', hmap⟩ := exists_forall₂_map.mp hentries
  have hlist := Shape.read_list_iff.mpr ⟨_, ns', rfl, rfl, hns'⟩
  refine ⟨_, hasMember_env.read_put hj.sorted hn rfl hlist, ?_⟩
  show ofNormal (.object (Members.put "env" (.list ns') ns)) = _
  rw [ofNormal_put]
  exact congrArg (fun e => { ofNormal (.object ns) with env := some e }) hmap

/-- **Writing the merged environment realises the merge.** -/
theorem Reads.writeOver_mergeEnv (h : Reads j c) (hj : j.Ordered) (o : List EnvVar) :
    Reads ((c.mergeEnv o).writeOver j) (c.mergeEnv o) :=
  h.writeOver hj (EnvVar.length_le_length_merge o _)

theorem ordered_writeOver (hj : j.Ordered) (c : Container) : (c.writeOver j).Ordered := by
  obtain ⟨env, others⟩ := c
  cases j with
  | object ms =>
    cases env with
    | none => exact hj
    | some es =>
      have hentries : ∀ e ∈ (Json.object ms).itemsAt "env", e.Ordered := hj.itemsAt
      exact hj.put (Json.ordered_list_iff.mpr (EnvVar.ordered_writeOver hentries es))
  | _ => exact hj

theorem writeOver_writeOver (c : Container) (j : Json) :
    c.writeOver (c.writeOver j) = c.writeOver j := by
  obtain ⟨env, others⟩ := c
  cases j with
  | object ms =>
    cases env with
    | none => rfl
    | some es => simp [writeOver, Json.items, EnvVar.writeOver_writeOver]
  | _ => rfl

/-- A merge hides an earlier one of the same names. -/
theorem mergeEnv_mergeEnv {o' : List EnvVar} (h : o.map EnvVar.name = o'.map EnvVar.name)
    (c : Container) : (c.mergeEnv o).mergeEnv o' = c.mergeEnv o' := by
  simp [mergeEnv, EnvVar.mergeOptional, EnvVar.merge_merge h]

/-! ## Lists of containers -/

/-- The values read as the containers, one for one. -/
def ReadsAll (js : List Json) (cs : List Container) : Prop := List.Forall₂ Reads js cs

variable {js : List Json} {cs : List Container}

/-- No container is left out: the lists have the same length, so the shorter one
    does not end the writing early. -/
theorem ReadsAll.writeEach (h : ReadsAll js cs) (hjs : ∀ j ∈ js, j.Ordered) (o : List EnvVar) :
    ReadsAll (writeEach (cs.map (mergeEnv o)) js) (cs.map (mergeEnv o)) := by
  induction h with
  | nil => exact .nil
  | cons hj _ ih =>
    have hhead := hj.writeOver_mergeEnv (hjs _ List.mem_cons_self) o
    have htail := ih fun j hj => hjs j (List.mem_cons_of_mem _ hj)
    exact .cons hhead htail

theorem ordered_writeEach (hjs : ∀ j ∈ js, j.Ordered) (cs : List Container) :
    ∀ j ∈ writeEach cs js, j.Ordered := by
  induction cs generalizing js with
  | nil => exact hjs
  | cons c cs ih =>
    cases js with
    | nil => exact hjs
    | cons j' js =>
      intro j hj
      rcases List.mem_cons.mp hj with rfl | hj
      · exact ordered_writeOver (hjs j' List.mem_cons_self) c
      · exact ih (fun j hj => hjs j (List.mem_cons_of_mem _ hj)) j hj

theorem ordered_writeList (hj : j.Ordered) (cs : List Container) : (writeList cs j).Ordered := by
  cases j with
  | list js =>
    exact Json.ordered_list_iff.mpr (ordered_writeEach (Json.ordered_list_iff.mp hj) cs)
  | _ => exact hj

theorem writeEach_writeEach (cs : List Container) (js : List Json) :
    writeEach cs (writeEach cs js) = writeEach cs js := by
  induction cs generalizing js with
  | nil => rfl
  | cons c cs ih =>
    cases js with
    | nil => rfl
    | cons j js => rw [writeEach, writeEach, ih, writeOver_writeOver]

theorem writeList_nil (j : Json) : writeList [] j = j := by
  cases j <;> rfl

theorem writeList_writeList (cs : List Container) (j : Json) :
    writeList cs (writeList cs j) = writeList cs j := by
  cases j with
  | list js => rw [writeList, writeList, writeEach_writeEach]
  | _ => rfl

end Container

/-! ## A list member of a record -/

section

variable {s : Shape} {presence : Presence}

/-- The containers that a member of a normal form holds. -/
def Json.containersAt (name : String) (n : Json) : List Container :=
  (n.itemsAt name).map Container.ofNormal

/-- The raw containers read as the typed ones. -/
theorem Shape.HasMember.readsAll_containersAt (hp : s.HasMember name (presence, .list container))
    (hs : Members.Sorted ms) (h : s.read (Json.object ms) = .ok n) :
    Container.ReadsAll ((Json.object ms).itemsAt name) (n.containersAt name) :=
  exists_forall₂_map.mpr ⟨_, hp.forall₂_itemsAt hs h, rfl⟩

/-- **Writing the containers of a member.**  The record then reads with the merged
    containers in that member, and with all else as it was. -/
theorem Shape.HasMember.read_writeList (hp : s.HasMember name (presence, .list container))
    (ht : (Json.object ms).Ordered) (h : s.read (Json.object ms) = .ok n) (o : List EnvVar) :
    ∃ ns, s.read ((Json.object ms).modifyAt
        (Container.writeList ((n.containersAt name).map (Container.mergeEnv o))) [name]) =
          .ok (n.modifyAt (fun _ => .list ns) [name]) ∧
      ns.map Container.ofNormal = (n.containersAt name).map (Container.mergeEnv o) := by
  have hs := ht.sorted
  have haligned := hp.readsAll_containersAt hs h
  obtain ⟨ms', rfl, hms'⟩ := hp.sorted hs h
  rcases hp.read_cases hs h with ⟨x, m, hx, -, hm, hget⟩ | ⟨habs, hget⟩
  · obtain ⟨js, -, rfl, -, -⟩ := Shape.read_list_iff.mp hm
    rw [Json.itemsAt_of_get? (j := .object ms) hx] at haligned
    -- the items that are written read as the merged containers
    have hwritten := haligned.writeEach (Json.ordered_list_iff.mp (ht.get? hx)) o
    obtain ⟨ns, hns, hmap⟩ := exists_forall₂_map.mp hwritten
    have hlist := Shape.read_list_iff.mpr ⟨_, ns, rfl, rfl, hns⟩
    refine ⟨ns, ?_, hmap⟩
    rw [Json.modifyAt_object, hs.modify_eq_put hx, Json.modifyAt_object,
      hms'.modify_eq_put hget, Json.modifyAt_nil, Json.modifyAt_nil]
    exact hp.read_put hs h rfl hlist
  · -- nothing is there to write to, and nothing was read
    have hraw : (Json.object ms).modifyAt (Container.writeList
        (((Json.object ms').containersAt name).map (Container.mergeEnv o))) [name] =
        .object ms := by
      refine Json.modifyAt_eq_self ⟨hs, fun _ _ => trivial⟩ fun x hx => ?_
      rw [Json.at?_singleton] at hx
      cases x with
      | null => rfl
      | _ => cases habs _ hx
    have hnormal : (Json.object ms').modifyAt (fun _ => .list []) [name] = .object ms' := by
      refine Json.modifyAt_eq_self ⟨hms', fun _ _ => trivial⟩ fun y hy => ?_
      rw [Json.at?_singleton, hget] at hy
      cases presence <;> cases hy
      rfl
    refine ⟨[], ?_, ?_⟩
    · rw [hraw, hnormal]
      exact h
    · rw [Json.containersAt, Json.itemsAt, hget]
      cases presence <;> rfl

/-- What a view sees of a list member after its items were changed. -/
theorem Json.map_items_modifyAt {ns : List Json} {f : Container → Container}
    (h : ns.map Container.ofNormal = (n.containersAt name).map f) :
    ((n.modifyAt (fun _ => .list ns) [name]).get? name).map
        (fun cs => cs.items.map Container.ofNormal) =
      ((n.get? name).map fun cs => cs.items.map Container.ofNormal).map (List.map f) := by
  rw [Json.get?_modifyAt_self]
  cases hget : n.get? name with
  | none => rfl
  | some x =>
    rw [Json.containersAt, Json.itemsAt, hget] at h
    exact congrArg some h

end

/-! ## Pod specs -/

namespace PodSpec

variable {p : PodSpec}

theorem hasMember_containers : podSpec.HasMember "containers" (.required, .list container) :=
  ⟨_, _, _, rfl, by decide, rfl⟩

theorem hasMember_initContainers : podSpec.HasMember "initContainers" (.optional, .list container) :=
  ⟨_, _, _, rfl, by decide, rfl⟩

theorem containers_ofNormal (n : Json) : (ofNormal n).containers = n.containersAt "containers" := by
  show ((n.get? "containers").map fun cs => cs.items.map Container.ofNormal).getD [] = _
  rw [Json.containersAt, Json.itemsAt]
  cases n.get? "containers" <;> rfl

theorem initContainers_ofNormal (n : Json) :
    (ofNormal n).initContainers.getD [] = n.containersAt "initContainers" := by
  show ((n.get? "initContainers").map fun cs => cs.items.map Container.ofNormal).getD [] = _
  rw [Json.containersAt, Json.itemsAt]
  cases n.get? "initContainers" <;> rfl

/-- A merge goes into each init container; where there are none it adds none. -/
theorem initContainers_mergeEnv (o : List EnvVar) (p : PodSpec) :
    (p.mergeEnv o).initContainers.getD [] =
      (p.initContainers.getD []).map (Container.mergeEnv o) := by
  rw [mergeEnv]
  cases p.initContainers <;> rfl

/-- Changing the two lists of a normal form is changing the containers it shows. -/
theorem ofNormal_modifyAt {ns ns' : List Json} {f : Container → Container}
    (h : ns.map Container.ofNormal = (n.containersAt "containers").map f)
    (h' : ns'.map Container.ofNormal = (n.containersAt "initContainers").map f) :
    ofNormal ((n.modifyAt (fun _ => .list ns) ["containers"]).modifyAt
        (fun _ => .list ns') ["initContainers"]) =
      { ofNormal n with
        containers := (ofNormal n).containers.map f
        initContainers := (ofNormal n).initContainers.map (List.map f) } := by
  have hcontainers := Json.map_items_modifyAt h
  have hinit := Json.map_items_modifyAt h'
  -- either change is seen in its own list and nowhere else
  simp only [ofNormal, PodSpec.mk.injEq]
  refine ⟨?_, ?_, ?_⟩
  · rw [Json.get?_modifyAt_ne (by decide), hcontainers]
    cases n.get? "containers" <;> rfl
  · rw [← hinit, Json.get?_modifyAt_self, Json.get?_modifyAt_self,
      Json.get?_modifyAt_ne (by decide)]
  · rw [Json.members_modifyAt, Json.members_modifyAt, Members.erase_modify_self,
      Members.erase_comm, Members.erase_modify_self, Members.erase_comm]

/-- Writing goes over the containers, then over the init containers; where there
    are none, writing none changes nothing. -/
theorem writeOver_eq (p : PodSpec) (t : Json) :
    p.writeOver t = (t.modifyAt (Container.writeList p.containers) ["containers"]).modifyAt
      (Container.writeList (p.initContainers.getD [])) ["initContainers"] := by
  obtain ⟨containers, initContainers, others⟩ := p
  cases initContainers with
  | some cs => rfl
  | none =>
    have hid : Container.writeList [] = id := funext Container.writeList_nil
    rw [Option.getD_none, hid, Json.modifyAt_id]
    rfl

theorem ordered_writeOver {t : Json} (ht : t.Ordered) (p : PodSpec) : (p.writeOver t).Ordered := by
  rw [writeOver_eq]
  exact (ht.modifyAt fun _ hx => Container.ordered_writeList hx _).modifyAt
    fun _ hx => Container.ordered_writeList hx _

/-- **Writing the merged environments over a pod spec realises the merge.** -/
theorem read_writeOver {t : Json} (ht : t.Ordered) (h : podSpec.read t = .ok n) (o : List EnvVar) :
    ∃ n', podSpec.read (((ofNormal n).mergeEnv o).writeOver t) = .ok n' ∧
      ofNormal n' = (ofNormal n).mergeEnv o := by
  obtain ⟨ms, rfl⟩ := hasMember_containers.object h
  -- first the containers are written, then the init containers
  obtain ⟨ns, hread, hns⟩ := hasMember_containers.read_writeList ht h o
  have ht' : ((Json.object ms).modifyAt (Container.writeList
      ((n.containersAt "containers").map (Container.mergeEnv o))) ["containers"]).Ordered :=
    ht.modifyAt fun _ hx => Container.ordered_writeList hx _
  obtain ⟨ns', hread', hns'⟩ := hasMember_initContainers.read_writeList ht' hread o
  have hinit : (n.modifyAt (fun _ => .list ns) ["containers"]).containersAt "initContainers" =
      n.containersAt "initContainers" := by
    rw [Json.containersAt, Json.itemsAt, Json.get?_modifyAt_ne (by decide)]
    rfl
  rw [hinit] at hread' hns'
  refine ⟨_, ?_, ofNormal_modifyAt hns hns'⟩
  rw [writeOver_eq, initContainers_mergeEnv, initContainers_ofNormal, mergeEnv,
    containers_ofNormal]
  exact hread'

end PodSpec

end WorkloadEnv
