import Mathlib.Data.List.Basic

/-!
Role-based access control. The wrapper keeps rows and bindings and asks Casbin,
whose role manager and object matcher are parameters. What a request may do is
read off the history of the bindings of its own tenant.
-/
namespace HorizonRic.Rbac

/-- A `p` row of the policy file. -/
structure PolicyRow where
  sub : String
  dom : String
  obj : String
  act : String
  deriving DecidableEq, Repr

/-- A `g` row: the user has the role in the tenant. -/
structure Binding where
  user : String
  role : String
  tenant : String
  deriving DecidableEq, Repr

/-- What Casbin brings: role links in one domain, and `keyMatch`. -/
structure Library where
  hasLink : List (String × String) → String → String → Bool
  keyMatch : String → String → Bool

/-- Reached over so many bindings. -/
def Linked (bound : String → String → Prop) : ℕ → String → String → Prop
  | 0, name, role => name = role
  | n + 1, name, role => ∃ middle, bound name middle ∧ Linked bound n middle role

/-- A name has itself as a role, and the roles over at most ten bindings. A pattern stands for
    itself, or up to its first star for all that begins so. -/
structure Library.Documented (lib : Library) : Prop where
  hasLink_iff : ∀ links name role, lib.hasLink links name role = true ↔
    ∃ n ≤ 10, Linked (fun user role => (user, role) ∈ links) n name role
  keyMatch_plain : ∀ key pattern, '*' ∉ pattern.toList →
    (lib.keyMatch key pattern = true ↔ key = pattern)
  keyMatch_star : ∀ key pattern before after, pattern.toList = before ++ '*' :: after →
    '*' ∉ before → (lib.keyMatch key pattern = true ↔ before <+: key.toList)

structure Casbin where
  policies : List PolicyRow
  groupings : List Binding

inductive RoleChange where
  | add (binding : Binding)
  | remove (binding : Binding)

def RoleChange.tenant : RoleChange → String
  | .add b => b.tenant
  | .remove b => b.tenant

namespace Casbin

/-- The bindings of one domain. -/
def links (c : Casbin) (tenant : String) : List (String × String) :=
  (c.groupings.filter fun b => b.tenant = tenant).map fun b => (b.user, b.role)

/-- The matcher of the model file, over all rows: some row has to allow. -/
def enforce (lib : Library) (c : Casbin) (sub dom obj act : String) : Bool :=
  c.policies.any fun p =>
    lib.hasLink (c.links dom) sub p.sub && decide (dom = p.dom) && lib.keyMatch obj p.obj &&
      (decide (act = p.act) || decide (p.act = "*"))

def addRole (c : Casbin) (user role tenant : String) : Bool × Casbin :=
  if ⟨user, role, tenant⟩ ∈ c.groupings then (false, c)
  else (true, { c with groupings := c.groupings ++ [⟨user, role, tenant⟩] })

def removeRole (c : Casbin) (user role tenant : String) : Bool × Casbin :=
  if ⟨user, role, tenant⟩ ∈ c.groupings then
    (true, { c with groupings := c.groupings.filter fun b => b ≠ ⟨user, role, tenant⟩ })
  else (false, c)

def step (c : Casbin) : RoleChange → Casbin
  | .add b => (c.addRole b.user b.role b.tenant).2
  | .remove b => (c.removeRole b.user b.role b.tenant).2

def run (c : Casbin) (changes : List RoleChange) : Casbin := changes.foldl step c

end Casbin

/-! The shipped policy file. -/

def seedTenants : List String := ["default", "tenant_alpha", "tenant_bravo", "tenant_charlie"]

/-- Role, object and action of the rows, which are the same in every tenant. -/
def seedRows : List (String × String × String) := [
  ("admin", "*", "*"),
  ("operator", "policies", "read"),
  ("operator", "policies/*", "read"),
  ("operator", "policies/*", "emit"),
  ("operator", "policies/*", "rollback"),
  ("operator", "lifecycle", "read"),
  ("operator", "lifecycle", "degrade"),
  ("auditor", "audit", "read"),
  ("auditor", "audit/*", "read"),
  ("auditor", "audit/*", "verify"),
  ("auditor", "policies", "read"),
  ("auditor", "policies/*", "read"),
  ("regulator", "audit", "read"),
  ("regulator", "audit/*", "read"),
  ("regulator", "audit/*", "verify"),
  ("regulator", "policies", "read"),
  ("regulator", "policies/*", "read"),
  ("regulator", "policies/*", "explain"),
  ("api-user", "state", "read"),
  ("api-user", "policies", "read")]

def seedPolicies : List PolicyRow :=
  seedTenants.flatMap fun tenant => seedRows.map fun (role, obj, act) => ⟨role, tenant, obj, act⟩

/-- Nobody is bound to a role by the shipped file. -/
def Casbin.seed : Casbin := ⟨seedPolicies, []⟩

/-! Histories of bindings. -/

/-- Whether a binding stands after a change. -/
def RoleChange.leaves (binding : Binding) (held : Prop) : RoleChange → Prop
  | .add b => b = binding ∨ held
  | .remove b => b ≠ binding ∧ held

/-- Whether it stands after all changes: the last one about it decides. -/
def Held (binding : Binding) : List RoleChange → Prop → Prop
  | [], held => held
  | change :: changes, held => Held binding changes (change.leaves binding held)

theorem step_policies (c : Casbin) (change : RoleChange) : (c.step change).policies = c.policies := by
  cases change with
  | add b =>
    unfold Casbin.step Casbin.addRole
    dsimp only
    split <;> rfl
  | remove b =>
    unfold Casbin.step Casbin.removeRole
    dsimp only
    split <;> rfl

theorem mem_step {c : Casbin} {change : RoleChange} {binding : Binding} :
    binding ∈ (c.step change).groupings ↔ change.leaves binding (binding ∈ c.groupings) := by
  cases change with
  | add b =>
    unfold Casbin.step Casbin.addRole RoleChange.leaves
    dsimp only
    split
    · rename_i present
      constructor
      · exact Or.inr
      · rintro (rfl | old)
        · exact present
        · exact old
    · rw [List.mem_append, List.mem_singleton, or_comm]
      exact or_congr_left eq_comm
  | remove b =>
    unfold Casbin.step Casbin.removeRole RoleChange.leaves
    dsimp only
    split
    · rw [List.mem_filter, decide_eq_true_eq, and_comm]
      exact and_congr_left fun _ => ne_comm
    · rename_i absent
      constructor
      · intro old
        refine ⟨?_, old⟩
        rintro rfl
        exact absent old
      · exact And.right

theorem run_policies (c : Casbin) (changes : List RoleChange) :
    (c.run changes).policies = c.policies := by
  induction changes generalizing c with
  | nil => rfl
  | cons change changes ih =>
    have rest := ih (c.step change)
    rw [step_policies] at rest
    exact rest

theorem mem_run {c : Casbin} {changes : List RoleChange} {binding : Binding} :
    binding ∈ (c.run changes).groupings ↔ Held binding changes (binding ∈ c.groupings) := by
  induction changes generalizing c with
  | nil => exact Iff.rfl
  | cons change changes ih =>
    have rest := ih (c := c.step change)
    rw [mem_step] at rest
    exact rest

theorem mem_links {c : Casbin} {tenant user role : String} :
    (user, role) ∈ c.links tenant ↔ ⟨user, role, tenant⟩ ∈ c.groupings := by
  simp only [Casbin.links, List.mem_map, List.mem_filter, decide_eq_true_eq, Prod.mk.injEq]
  constructor
  · rintro ⟨b, ⟨member, rfl⟩, rfl, rfl⟩
    exact member
  · intro member
    exact ⟨_, ⟨member, rfl⟩, rfl, rfl⟩

theorem Linked.congr {bound bound' : String → String → Prop} {n : ℕ} {name role : String}
    (same : ∀ user role, bound user role ↔ bound' user role) :
    Linked bound n name role ↔ Linked bound' n name role := by
  induction n generalizing name with
  | zero => exact Iff.rfl
  | succ n ih =>
    simp only [Linked, same]
    exact exists_congr fun middle => and_congr_right fun _ => ih

/-- Some row of the domain allows the action on the object to a role of the subject, through
    bindings of this domain that stand. -/
def Permitted (lib : Library) (c : Casbin) (changes : List RoleChange) (sub dom obj act : String) :
    Prop :=
  ∃ p ∈ c.policies, p.dom = dom ∧ lib.keyMatch obj p.obj = true ∧ (act = p.act ∨ p.act = "*") ∧
    ∃ n ≤ 10, Linked (fun user role =>
      Held ⟨user, role, dom⟩ changes (⟨user, role, dom⟩ ∈ c.groupings)) n sub p.sub

theorem enforce_run {lib : Library} (documented : lib.Documented) (c : Casbin)
    (changes : List RoleChange) (sub dom obj act : String) :
    (c.run changes).enforce lib sub dom obj act = true ↔
      Permitted lib c changes sub dom obj act := by
  have link : ∀ role, lib.hasLink ((c.run changes).links dom) sub role = true ↔
      ∃ n ≤ 10, Linked (fun user role =>
        Held ⟨user, role, dom⟩ changes (⟨user, role, dom⟩ ∈ c.groupings)) n sub role := by
    intro role
    rw [documented.hasLink_iff]
    refine exists_congr fun n => and_congr_right fun _ => Linked.congr fun user role => ?_
    rw [mem_links, mem_run]
  rw [Casbin.enforce, List.any_eq_true, run_policies]
  refine exists_congr fun p => and_congr_right fun _ => ?_
  simp only [Bool.and_eq_true, Bool.or_eq_true, decide_eq_true_eq, link]
  constructor
  · rintro ⟨⟨⟨linked, domain⟩, object⟩, action⟩
    exact ⟨domain.symm, object, action, linked⟩
  · rintro ⟨domain, object, action, linked⟩
    exact ⟨⟨⟨linked, domain.symm⟩, object⟩, action⟩

/-- By the shipped file only admins emit or roll back, and operators, these below `policies/`. -/
theorem seed_writers {lib : Library} (documented : lib.Documented) {changes : List RoleChange}
    {sub dom obj act : String} (writes : act = "emit" ∨ act = "rollback")
    (permitted : Permitted lib .seed changes sub dom obj act) :
    dom ∈ seedTenants ∧ ∃ n ≤ 10, ∃ role,
      Linked (fun user role => Held ⟨user, role, dom⟩ changes False) n sub role ∧
        (role = "admin" ∨ role = "operator" ∧ "policies/".toList <+: obj.toList) := by
  obtain ⟨p, member, rfl, object, action, n, short, linked⟩ := permitted
  obtain ⟨tenant, shipped, inside⟩ := List.mem_flatMap.mp member
  obtain ⟨⟨role, pattern, verb⟩, row, rfl⟩ := List.mem_map.mp inside
  have writers : ∀ row ∈ seedRows, row.2.2 = "emit" ∨ row.2.2 = "rollback" ∨ row.2.2 = "*" →
      row.1 = "admin" ∨ row.1 = "operator" ∧ row.2.1 = "policies/*" := by decide
  have verb_ : verb = "emit" ∨ verb = "rollback" ∨ verb = "*" := by
    rcases action with rfl | star
    · rcases writes with emit | rollback
      · exact Or.inl emit
      · exact Or.inr (Or.inl rollback)
    · exact Or.inr (Or.inr star)
  refine ⟨shipped, n, short, role, ?_, ?_⟩
  · have none_ : ∀ b : Binding, b ∈ Casbin.seed.groupings ↔ False := fun b =>
      iff_of_false List.not_mem_nil id
    simpa only [none_] using linked
  · rcases writers _ row verb_ with admin | ⟨operator, below⟩
    · exact Or.inl admin
    · refine Or.inr ⟨operator, ?_⟩
      dsimp only at below object
      rw [below] at object
      exact (documented.keyMatch_star obj "policies/*" "policies/".toList [] (by decide)
        (by decide)).mp object

/-- Changes in other tenants change nothing about a binding. -/
theorem held_of_tenant {binding : Binding} {changes : List RoleChange} {held : Prop} :
    Held binding (changes.filter fun change => change.tenant = binding.tenant) held ↔
      Held binding changes held := by
  induction changes generalizing held with
  | nil => exact Iff.rfl
  | cons change changes ih =>
    by_cases own : change.tenant = binding.tenant
    · rw [List.filter_cons, if_pos (decide_eq_true own)]
      exact ih
    · have dropped : ¬decide (change.tenant = binding.tenant) = true := by simpa using own
      rw [List.filter_cons, if_neg dropped, Held, ih]
      have same : change.leaves binding held ↔ held := by
        cases change with
        | add b =>
          have other : b ≠ binding := fun equal => own (congrArg Binding.tenant equal)
          exact ⟨fun stands => stands.resolve_left other, Or.inr⟩
        | remove b =>
          have other : b ≠ binding := fun equal => own (congrArg Binding.tenant equal)
          exact ⟨And.right, fun stands => ⟨other, stands⟩⟩
      rw [same]

end HorizonRic.Rbac
