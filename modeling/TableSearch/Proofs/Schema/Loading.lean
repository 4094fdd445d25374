/-
Registries that are loaded.

A list is loaded by registering its entities one by one, so of all entities of a name the last one
is found (`get_load_eq_ok`).  A registry holds its entities in the order of their names, and
loading them in this order gives the same registry again, without a warning (`load_items`).  Every
step that makes a registry keeps its entities under their own names: `Backs.foldl_write`.
-/
import TableSearch.Proofs.Keyed
import TableSearch.Proofs.Schema.Validation

namespace TableSearch
namespace Registry

variable {r : Registry} {e : Entity} {entities : List Entity} {name : String}

theorem registerAll_registry (r : Registry) (entities : List Entity) :
    (registerAll r entities).1 = entities.foldl register r := by
  induction entities generalizing r with
  | nil => rfl
  | cons e rest ih => exact ih (r.register e)

/-- Loading registers entities one by one. -/
theorem load_registry (entities : List Entity) :
    (load entities).1 = entities.foldl register Keyed.empty :=
  registerAll_registry Keyed.empty entities

theorem load_eq_ofList (entities : List Entity) : (load entities).1 = Keyed.ofList entities :=
  load_registry entities

/-- What is found under a name is the last entity of this name. -/
theorem get_load_eq_ok :
    (load entities).1.get name = .ok e ↔ ∃ before after, entities = before ++ e :: after ∧
      e.name = name ∧ ∀ other ∈ after, other.name ≠ name := by
  rw [get_eq_ok, load_eq_ofList, Keyed.find?_ofList_eq_some]

/-- Every entity is found under its own name and under no other. -/
theorem get_eq_ok_iff : r.get name = .ok e ↔ e ∈ r.items ∧ e.name = name := by
  rw [get_eq_ok]
  constructor
  · intro h
    exact ⟨Keyed.mem_of_find? h, Keyed.key_of_find? h⟩
  · rintro ⟨hmem, rfl⟩
    exact Keyed.find?_of_mem hmem

/-- Entities under new names replace nothing. -/
theorem registerAll_warnings (hnew : ∀ e ∈ entities, r.find? e.name = none)
    (hnames : entities.Pairwise fun a b => a.name ≠ b.name) : (registerAll r entities).2 = [] := by
  induction entities generalizing r with
  | nil => rfl
  | cons e rest ih =>
    obtain ⟨he, hrest⟩ := List.forall_mem_cons.mp hnew
    obtain ⟨hother, hnames⟩ := List.pairwise_cons.mp hnames
    have hkept : ∀ d ∈ rest, (r.register e).find? d.name = none := by
      intro d hd
      rw [register, Keyed.find?_insert, if_neg (hother d hd)]
      exact hrest d hd
    show r.replacing e ++ (registerAll (r.register e) rest).2 = []
    rw [ih hkept hnames, replacing, Keyed.contains, he]
    rfl

theorem names_distinct (r : Registry) : r.items.Pairwise fun a b => a.name ≠ b.name := by
  refine r.increasing.imp fun h heq => ?_
  rw [heq] at h
  exact String.lt_irrefl _ h

/-- The entities of a registry load to the registry. -/
theorem load_items (r : Registry) : load r.items = (r, []) := by
  refine Prod.ext ?_ (registerAll_warnings (fun _ _ => rfl) r.names_distinct)
  rw [load_eq_ofList, Keyed.ofList_items]

/-! ## Registries that steps make -/

inductive Step where
  | register (e : Entity)
  | load (entities : List Entity)

namespace Step

def apply (r : Registry) : Step → Registry
  | .register e => r.register e
  | .load entities => (Registry.load entities).1

def store (d : Dict Entity) (e : Entity) : Dict Entity :=
  d.set e.name e

/-- The map after a step that stores entities under their names. -/
def write (d : Dict Entity) : Step → Dict Entity
  | .register e => store d e
  | .load entities => entities.foldl store Keyed.empty

end Step

/-- A map holds the entities of a registry, each under its own name. -/
def Backs (d : Dict Entity) (r : Registry) : Prop :=
  d.entries = r.items.map fun e => (e.name, e)

variable {d : Dict Entity}

theorem backs_empty : Backs Keyed.empty Keyed.empty :=
  rfl

theorem Backs.store (h : Backs d r) (e : Entity) : Backs (Step.store d e) (r.register e) := by
  show Keyed.place Prod.fst (e.name, e) d.entries = (Keyed.place Entity.name e r.items).map _
  rw [h, Keyed.map_place]

theorem Backs.foldl_store (h : Backs d r) (entities : List Entity) :
    Backs (entities.foldl Step.store d) (entities.foldl register r) := by
  induction entities generalizing d r with
  | nil => exact h
  | cons e rest ih => exact ih (h.store e)

/-- Every step keeps the entities under their names. -/
theorem Backs.write (h : Backs d r) (step : Step) : Backs (step.write d) (step.apply r) := by
  cases step with
  | register e => exact h.store e
  | load entities =>
    show Backs _ (load entities).1
    rw [load_registry]
    exact backs_empty.foldl_store entities

theorem Backs.foldl_write (h : Backs d r) (steps : List Step) :
    Backs (steps.foldl Step.write d) (steps.foldl Step.apply r) := by
  induction steps generalizing d r with
  | nil => exact h
  | cons step rest ih => exact ih (h.write step)

end Registry
end TableSearch
