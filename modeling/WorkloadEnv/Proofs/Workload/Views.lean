import WorkloadEnv.Proofs.Decode.NormalForm
import WorkloadEnv.Proofs.Workload.Injection

/-! # Views lose nothing

    A view of a normal form shows some of its members as values of their own
    types.  Writing the view gives the normal form again, member for member
    (`PodSpec.viewed`), so what is said of the typed value is said of its JSON.

    Views of variables name every member of their shape, so they are compared
    with the list of all members (`Shape.ofPresent_of_read`).  Views of
    containers and pod specs keep the members they do not name, so there the
    members that are named are put back in their places
    (`Members.Sorted.putPresent_erase`). -/

namespace WorkloadEnv

open Kubernetes

namespace Members

/-- A member that is taken out and put back, if it was there, is where it was. -/
theorem Sorted.putPresent_erase {α : Type} {name : String} {ms : Members α} (h : Sorted ms) :
    putPresent name (get? name ms) (Members.erase name ms) = ms := by
  cases ha : get? name ms with
  | some a => exact h.put_erase ha
  | none => exact erase_of_get?_eq_none ha

end Members

namespace Shape

variable {β : Type} {view : Json → β} {write : β → Json}
variable {s item : Shape} {members : Members (Presence × Shape)} {name : String} {j n : Json}

/-! ## Views -/

/-- What was read under the shape is written again from what the view shows of it. -/
def ViewedBy (s : Shape) (view : Json → β) (write : β → Json) : Prop :=
  ∀ j n : Json, j.Proper → s.read j = .ok n → write (view n) = n

/-- A list is viewed item by item. -/
theorem ViewedBy.list (hitem : item.ViewedBy view write) :
    (Shape.list item).ViewedBy (fun n => n.items.map view) (fun bs => .list (bs.map write)) := by
  intro j n hj h
  obtain ⟨js, ns, rfl, rfl, hall⟩ := read_list_iff.mp h
  refine congrArg Json.list ?_
  show (ns.map view).map write = ns
  rw [List.map_map]
  -- each item of the normal form was read from an item of the list
  refine (List.map_congr_left fun n hn => ?_).trans (List.map_id ns)
  obtain ⟨j, hmem, hread⟩ := exists_of_mem_right hall hn
  exact hitem j n (Json.proper_list_iff.mp hj j hmem) hread

/-! ## Members of a normal form -/

/-- A member that may be missing is shown as it is, if it is there. -/
theorem HasMember.shown? {view? : Json → Option β} (hp : s.HasMember name (.optional, item))
    (hregular : item.Regular)
    (hshown : ∀ x m : Json, x.Proper → item.read x = .ok m → (view? m).map write = some m)
    (hj : j.Proper) (h : s.read j = .ok n) :
    ((n.get? name).bind view?).map write = n.get? name := by
  rcases hp.get?_cases hregular hj h with ⟨hnone, -⟩ | ⟨x, m, hx, hread, hget⟩
  · rw [hnone]
    rfl
  · rw [hget]
    exact hshown x m hx hread

theorem HasMember.textAt? (hp : s.HasMember name (.optional, .text)) (hj : j.Proper)
    (h : s.read j = .ok n) : (n.textAt? name).map .text = n.get? name := by
  refine hp.shown? trivial (fun x m _ hread => ?_) hj h
  obtain ⟨t, -, rfl⟩ := read_text_iff.mp hread
  rfl

theorem HasMember.boolAt? (hp : s.HasMember name (.optional, .bool)) (hj : j.Proper)
    (h : s.read j = .ok n) : (n.boolAt? name).map .bool = n.get? name := by
  refine hp.shown? trivial (fun x m _ hread => ?_) hj h
  obtain ⟨b, -, rfl⟩ := read_bool_iff.mp hread
  rfl

theorem HasMember.part? (hp : s.HasMember name (.optional, item)) (hregular : item.Regular)
    (hitem : item.ViewedBy view write) (hj : j.Proper) (h : s.read j = .ok n) :
    ((n.get? name).map view).map write = n.get? name := by
  have hshown : ∀ x m : Json, x.Proper → item.read x = .ok m →
      ((some ∘ view) m).map write = some m :=
    fun x m hx hread => congrArg some (hitem x m hx hread)
  rw [Option.map_eq_bind (f := view)]
  exact hp.shown? hregular hshown hj h

theorem HasMember.textAt (hp : s.HasMember name (.required, .text)) (hj : j.Proper)
    (h : s.read j = .ok n) : some (.text (n.textAt name)) = n.get? name := by
  rcases hp.get?_cases trivial hj h with ⟨-, hpresence⟩ | ⟨x, m, -, hread, hget⟩
  · cases hpresence
  · obtain ⟨t, -, rfl⟩ := read_text_iff.mp hread
    rw [Json.textAt, hget]
    rfl

/-- A required part is there. -/
theorem HasMember.part (hp : s.HasMember name (.required, item)) (hregular : item.Regular)
    (hitem : item.ViewedBy view write) (hj : j.Proper) (h : s.read j = .ok n) (b : β) :
    n.get? name = some (write (((n.get? name).map view).getD b)) := by
  rcases hp.get?_cases hregular hj h with ⟨-, hpresence⟩ | ⟨x, m, hx, hread, hget⟩
  · cases hpresence
  · rw [hget]
    exact congrArg some (hitem x m hx hread).symm

/-- A normal form is the object of those members of its record that are present. -/
theorem ofPresent_of_read {record : String} (hw : WellNamed [] members)
    (hj : j.Proper) (h : (Shape.record record [] members).read j = .ok n) :
    Json.ofPresent (members.map fun m => (m.1, n.get? m.1)) = n := by
  obtain ⟨ms, rfl⟩ := object_of_read_record h
  have hs := hj.ordered.sorted
  have hget : ∀ m ∈ members, n.get? m.1 = memberValue ms m.1 m.2 := by
    intro m hm
    have hp : (Shape.record record [] members).HasMember m.1 m.2 :=
      ⟨_, _, _, rfl, hw, Members.get?_of_mem hw.sorted.nodup hm⟩
    exact hp.get?_read hs h
  obtain ⟨-, rfl⟩ := (read_record_iff hw hs).mp h
  -- a name is found in the normal form where its value was put
  refine congrArg Json.object ?_
  rw [List.filterMap_map]
  exact List.filterMap_congr fun m hm => by rw [Function.comp_apply, hget m hm]

end Shape

/-! ## Where a value is taken from -/

/-- Both records that are shown as a key selector, whatever their name. -/
theorem KeySelector.viewed (record : String) :
    (Kubernetes.record record [must "key" .text, must "name" .text, may "optional" .bool]).ViewedBy
      ofNormal toJson := by
  intro j n hj h
  have hkey : some (.text (n.textAt "key")) = n.get? "key" :=
    Shape.HasMember.textAt ⟨_, _, _, rfl, by decide, rfl⟩ hj h
  have hname : some (.text (n.textAt "name")) = n.get? "name" :=
    Shape.HasMember.textAt ⟨_, _, _, rfl, by decide, rfl⟩ hj h
  have hoptional : (n.boolAt? "optional").map .bool = n.get? "optional" :=
    Shape.HasMember.boolAt? ⟨_, _, _, rfl, by decide, rfl⟩ hj h
  rw [toJson, ofNormal, hkey, hname, hoptional]
  exact Shape.ofPresent_of_read (by decide) hj h

theorem FieldSelector.viewed : objectFieldSelector.ViewedBy ofNormal toJson := by
  intro j n hj h
  have hversion : (n.textAt? "apiVersion").map .text = n.get? "apiVersion" :=
    Shape.HasMember.textAt? ⟨_, _, _, rfl, by decide, rfl⟩ hj h
  have hpath : some (.text (n.textAt "fieldPath")) = n.get? "fieldPath" :=
    Shape.HasMember.textAt ⟨_, _, _, rfl, by decide, rfl⟩ hj h
  rw [toJson, ofNormal, hversion, hpath]
  exact Shape.ofPresent_of_read (by decide) hj h

theorem ResourceSelector.viewed : resourceFieldSelector.ViewedBy ofNormal toJson := by
  intro j n hj h
  have hcontainer : (n.textAt? "containerName").map .text = n.get? "containerName" :=
    Shape.HasMember.textAt? ⟨_, _, _, rfl, by decide, rfl⟩ hj h
  have hdivisor : (n.textAt? "divisor").map .text = n.get? "divisor" :=
    Shape.HasMember.textAt? ⟨_, _, _, rfl, by decide, rfl⟩ hj h
  have hresource : some (.text (n.textAt "resource")) = n.get? "resource" :=
    Shape.HasMember.textAt ⟨_, _, _, rfl, by decide, rfl⟩ hj h
  rw [toJson, ofNormal, hcontainer, hdivisor, hresource]
  exact Shape.ofPresent_of_read (by decide) hj h

theorem EnvVarSource.viewed : envVarSource.ViewedBy ofNormal toJson := by
  intro j n hj h
  have hconfigMap : ((n.get? "configMapKeyRef").map KeySelector.ofNormal).map KeySelector.toJson =
      n.get? "configMapKeyRef" :=
    Shape.HasMember.part? ⟨_, _, _, rfl, by decide, rfl⟩ (by decide) (KeySelector.viewed _) hj h
  have hfield : ((n.get? "fieldRef").map FieldSelector.ofNormal).map FieldSelector.toJson =
      n.get? "fieldRef" :=
    Shape.HasMember.part? ⟨_, _, _, rfl, by decide, rfl⟩ (by decide) FieldSelector.viewed hj h
  have hresource :
      ((n.get? "resourceFieldRef").map ResourceSelector.ofNormal).map ResourceSelector.toJson =
        n.get? "resourceFieldRef" :=
    Shape.HasMember.part? ⟨_, _, _, rfl, by decide, rfl⟩ (by decide) ResourceSelector.viewed hj h
  have hsecret : ((n.get? "secretKeyRef").map KeySelector.ofNormal).map KeySelector.toJson =
      n.get? "secretKeyRef" :=
    Shape.HasMember.part? ⟨_, _, _, rfl, by decide, rfl⟩ (by decide) (KeySelector.viewed _) hj h
  rw [toJson, ofNormal, hconfigMap, hfield, hresource, hsecret]
  exact Shape.ofPresent_of_read (by decide) hj h

/-! ## Variables, containers and pod specs -/

theorem EnvVar.viewed : envVar.ViewedBy ofNormal toJson := by
  intro j n hj h
  have hname : some (.text (n.textAt "name")) = n.get? "name" :=
    Shape.HasMember.textAt ⟨_, _, _, rfl, by decide, rfl⟩ hj h
  have hvalue : (n.textAt? "value").map .text = n.get? "value" :=
    Shape.HasMember.textAt? ⟨_, _, _, rfl, by decide, rfl⟩ hj h
  have hvalueFrom : ((n.get? "valueFrom").map EnvVarSource.ofNormal).map EnvVarSource.toJson =
      n.get? "valueFrom" :=
    Shape.HasMember.part? ⟨_, _, _, rfl, by decide, rfl⟩ (by decide) EnvVarSource.viewed hj h
  rw [toJson, ofNormal, hname, hvalue, hvalueFrom]
  exact Shape.ofPresent_of_read (by decide) hj h

/-- In every record a pod spec can have in it the names are increasing. -/
theorem PodSpec.regular : podSpec.Regular := by decide +kernel

theorem Container.regular : container.Regular := PodSpec.hasMember_containers.regular PodSpec.regular

theorem Container.viewed : container.ViewedBy ofNormal toJson := by
  intro j n hj h
  have henv := hasMember_env.part? (hasMember_env.regular regular) EnvVar.viewed.list hj h
  obtain ⟨ms, rfl⟩ := hasMember_env.object h
  obtain ⟨ns, rfl, hs⟩ := hasMember_env.sorted hj.ordered.sorted h
  refine congrArg Json.object ?_
  calc Members.putPresent "env" _ (Members.erase "env" ns)
      = Members.putPresent "env" (Members.get? "env" ns) (Members.erase "env" ns) :=
        congrArg (Members.putPresent "env" · _) henv
    _ = ns := hs.putPresent_erase

/-- **A pod spec that was read is written as its normal form.** -/
theorem PodSpec.viewed : podSpec.ViewedBy ofNormal toJson := by
  intro j n hj h
  have hcontainers := hasMember_containers.part Container.regular Container.viewed.list hj h []
  have hinit := hasMember_initContainers.part? Container.regular Container.viewed.list hj h
  obtain ⟨ms, rfl⟩ := hasMember_containers.object h
  obtain ⟨ns, rfl, hs⟩ := hasMember_containers.sorted hj.ordered.sorted h
  -- the init containers are put back beside the other members, then the containers
  have hback : Members.putPresent "initContainers" (Members.get? "initContainers" ns)
      (Members.erase "containers" (Members.erase "initContainers" ns)) =
        Members.erase "containers" ns := by
    have hget : Members.get? "initContainers" (Members.erase "containers" ns) =
        Members.get? "initContainers" ns := Members.get?_erase_ne (by decide) ns
    rw [Members.erase_comm, ← hget]
    exact hs.erase.putPresent_erase
  refine congrArg Json.object ?_
  calc Members.put "containers" _ (Members.putPresent "initContainers" _ _)
      = Members.put "containers" _ (Members.erase "containers" ns) :=
        congrArg (Members.put "containers" _)
          ((congrArg (Members.putPresent "initContainers" · _) hinit).trans hback)
    _ = ns := hs.put_erase hcontainers

/-! ## Decoded pod specs -/

namespace PodSpec

variable {p : PodSpec}

/-- The pod spec was decoded from a JSON value as JSON can write it. -/
def FromJson (p : PodSpec) : Prop := ∃ j : Json, j.Proper ∧ PodSpec.read j = .ok p

/-- Pod specs that are decoded from a JSON text are among them. -/
theorem fromJson_of_parse {s : String} {j : Json} (hj : Json.parse s = .ok j)
    (hp : PodSpec.read j = .ok p) : p.FromJson :=
  ⟨j, Json.proper_of_parse hj, hp⟩

/-- **A decoded pod spec is the view of its own JSON**, which is a normal form. -/
theorem FromJson.toJson (hp : p.FromJson) :
    podSpec.Normal p.toJson ∧ p.toJson.Proper ∧ ofNormal p.toJson = p := by
  obtain ⟨j, hj, hread⟩ := hp
  obtain ⟨n, hn, rfl⟩ := map_eq_ok_iff.mp hread
  have hnull : j.isNull = false := isNull_of_read hn
  rw [viewed j n hj hn]
  exact ⟨Shape.normal_of_read regular hj hnull hn, Shape.proper_of_read regular hj hn, rfl⟩

end PodSpec

end WorkloadEnv
