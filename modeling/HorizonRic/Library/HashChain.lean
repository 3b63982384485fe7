import Mathlib.Logic.Function.Basic
import Mathlib.Data.List.Infix
import Mathlib.Data.List.Nodup
import Mathlib.Data.Set.Basic

/-!
Interleaved hash chains. Every row extends the chain of its key: its hash is
`step` of the hash before it in that chain and of its payload. When `step` has
no collision on what was hashed and never gives the start, the last hash of a
key commits to every payload of the key, in order.
-/
namespace HashChain

structure Row (κ π η : Type) where
  key : κ
  payload : π
  hash : η

section
variable {κ π η : Type} [DecidableEq κ] (step : η → π → η)

/-- Each row extends its chain, from the hashes `prev` that came before. -/
def Linked : (κ → η) → List (Row κ π η) → Prop
  | _, [] => True
  | prev, r :: rest =>
    r.hash = step (prev r.key) r.payload ∧ Linked (Function.update prev r.key r.hash) rest

/-- The last hash of every key. -/
def heads : (κ → η) → List (Row κ π η) → κ → η
  | prev, [] => prev
  | prev, r :: rest => heads (Function.update prev r.key r.hash) rest

/-- What was hashed: for each row, the hash before it and its payload. -/
def links : (κ → η) → List (Row κ π η) → List (η × π)
  | _, [] => []
  | prev, r :: rest => (prev r.key, r.payload) :: links (Function.update prev r.key r.hash) rest

def rowsOf (key : κ) (rows : List (Row κ π η)) : List (Row κ π η) :=
  rows.filter fun r => decide (r.key = key)

def payloads (key : κ) (rows : List (Row κ π η)) : List π := (rowsOf key rows).map Row.payload

theorem heads_append (prev : κ → η) (rows more : List (Row κ π η)) :
    heads prev (rows ++ more) = heads (heads prev rows) more := by
  induction rows generalizing prev with
  | nil => rfl
  | cons r rest ih => exact ih _

theorem links_append (prev : κ → η) (rows more : List (Row κ π η)) :
    links prev (rows ++ more) = links prev rows ++ links (heads prev rows) more := by
  induction rows generalizing prev with
  | nil => rfl
  | cons r rest ih => simp only [List.cons_append, links, heads, ih]

theorem linked_append (prev : κ → η) (rows more : List (Row κ π η)) :
    Linked step prev (rows ++ more) ↔
      Linked step prev rows ∧ Linked step (heads prev rows) more := by
  induction rows generalizing prev with
  | nil => simp [Linked, heads]
  | cons r rest ih => simp only [List.cons_append, Linked, heads, ih, and_assoc]

theorem rowsOf_cons_self (r : Row κ π η) (rest : List (Row κ π η)) :
    rowsOf r.key (r :: rest) = r :: rowsOf r.key rest := by
  simp [rowsOf]

theorem rowsOf_cons_ne {key : κ} {r : Row κ π η} (ne : r.key ≠ key) (rest : List (Row κ π η)) :
    rowsOf key (r :: rest) = rowsOf key rest := by
  simp [rowsOf, ne]

/-- The rows form one chain from the hash `h`. -/
def ChainFrom : η → List (Row κ π η) → Prop
  | _, [] => True
  | h, r :: rest => r.hash = step h r.payload ∧ ChainFrom r.hash rest

theorem chainFrom_rowsOf {prev : κ → η} {rows : List (Row κ π η)} (linked : Linked step prev rows)
    (key : κ) : ChainFrom step (prev key) (rowsOf key rows) := by
  induction rows generalizing prev with
  | nil => trivial
  | cons r rest ih =>
    obtain ⟨first, later⟩ := linked
    have tail := ih later
    by_cases same : r.key = key
    · subst same
      rw [Function.update_self] at tail
      rw [rowsOf_cons_self]
      exact ⟨first, tail⟩
    · rw [Function.update_of_ne (Ne.symm same)] at tail
      rwa [rowsOf_cons_ne same]

/-- One chain of one key, as a list of its own. -/
theorem linked_of_chainFrom {prev : κ → η} {rows : List (Row κ π η)} {key : κ}
    (same : ∀ r ∈ rows, r.key = key) (chain : ChainFrom step (prev key) rows) :
    Linked step prev rows := by
  induction rows generalizing prev with
  | nil => trivial
  | cons r rest ih =>
    obtain ⟨first, later⟩ := chain
    have mine : r.key = key := same r List.mem_cons_self
    refine ⟨by rw [mine, first], ih (fun s member => same s (List.mem_cons_of_mem _ member)) ?_⟩
    rw [mine, Function.update_self]
    exact later

theorem linked_rowsOf {prev : κ → η} {rows : List (Row κ π η)} (linked : Linked step prev rows)
    (key : κ) : Linked step prev (rowsOf key rows) :=
  linked_of_chainFrom step (fun _ member => of_decide_eq_true (List.mem_filter.mp member).2)
    (chainFrom_rowsOf step linked key)

theorem heads_eq_getLast (prev : κ → η) (rows : List (Row κ π η)) (key : κ) :
    heads prev rows key = (((rowsOf key rows).getLast?).map Row.hash).getD (prev key) := by
  induction rows generalizing prev with
  | nil => rfl
  | cons r rest ih =>
    rw [heads, ih]
    by_cases same : r.key = key
    · subst same
      rw [rowsOf_cons_self, List.getLast?_cons]
      cases (rowsOf r.key rest).getLast? <;> simp
    · rw [rowsOf_cons_ne same, Function.update_of_ne (Ne.symm same)]

/-- In a linked list the head of a key folds its payloads. -/
theorem heads_eq_foldl {prev : κ → η} {rows : List (Row κ π η)} (linked : Linked step prev rows)
    (key : κ) : heads prev rows key = (payloads key rows).foldl step (prev key) := by
  induction rows generalizing prev with
  | nil => rfl
  | cons r rest ih =>
    obtain ⟨first, later⟩ := linked
    rw [heads, ih later]
    by_cases same : r.key = key
    · subst same
      rw [Function.update_self, payloads, payloads, rowsOf_cons_self, List.map_cons,
        List.foldl_cons, first]
    · rw [Function.update_of_ne (Ne.symm same), payloads, payloads, rowsOf_cons_ne same]

/-- The pairs a single chain hashes, from the hash `start`. -/
def visited : η → List π → List (η × π)
  | _, [] => []
  | start, p :: ps => (start, p) :: visited (step start p) ps

theorem visited_append (start : η) (ps : List π) (p : π) :
    visited step start (ps ++ [p]) = visited step start ps ++ [(ps.foldl step start, p)] := by
  induction ps generalizing start with
  | nil => rfl
  | cons q qs ih => simp only [List.cons_append, visited, ih, List.foldl_cons]

theorem visited_mono {start : η} {ps qs : List π} (h : ps <+: qs) :
    visited step start ps ⊆ visited step start qs := by
  induction ps generalizing start qs with
  | nil => exact List.nil_subset _
  | cons p ps ih =>
    obtain ⟨rest, rfl⟩ := h
    simp only [List.cons_append, visited]
    exact List.cons_subset_cons _ (ih (List.prefix_append ps rest))

theorem visited_subset_links {prev : κ → η} {rows : List (Row κ π η)}
    (linked : Linked step prev rows) (key : κ) :
    visited step (prev key) (payloads key rows) ⊆ links prev rows := by
  induction rows generalizing prev with
  | nil => exact List.nil_subset _
  | cons r rest ih =>
    obtain ⟨first, later⟩ := linked
    by_cases same : r.key = key
    · subst same
      rw [payloads, rowsOf_cons_self, List.map_cons, visited, links]
      have tail := ih later
      rw [Function.update_self, first] at tail
      rw [first]
      exact List.cons_subset_cons _ tail
    · have tail := ih later
      rw [Function.update_of_ne (Ne.symm same)] at tail
      rw [payloads, rowsOf_cons_ne same, links]
      exact List.Subset.trans tail (List.subset_cons_self _ _)

/-- Every row of a linked list hashes one of the pairs. -/
theorem link_of_mem {prev : κ → η} {rows : List (Row κ π η)} (linked : Linked step prev rows)
    {r : Row κ π η} (member : r ∈ rows) :
    ∃ before, (before, r.payload) ∈ links prev rows ∧ r.hash = step before r.payload := by
  induction rows generalizing prev with
  | nil => cases member
  | cons first rest ih =>
    obtain ⟨hash, later⟩ := linked
    rcases List.mem_cons.mp member with rfl | deeper
    · exact ⟨_, List.mem_cons_self, hash⟩
    · obtain ⟨before, among, value⟩ := ih later deeper
      exact ⟨before, List.mem_cons_of_mem _ among, value⟩

/-- No two pairs of `hashed` have the same hash, and none has the start's. -/
structure CollisionFree (start : η) (hashed : Set (η × π)) : Prop where
  injective : ∀ a ∈ hashed, ∀ b ∈ hashed, step a.1 a.2 = step b.1 b.2 → a = b
  nonzero : ∀ a ∈ hashed, step a.1 a.2 ≠ start

variable {step} {start : η} {hashed : Set (η × π)}

theorem CollisionFree.mono {smaller : Set (η × π)} (free : CollisionFree step start hashed)
    (sub : ∀ a ∈ smaller, a ∈ hashed) : CollisionFree step start smaller where
  injective a ha b hb := free.injective a (sub a ha) b (sub b hb)
  nonzero a ha := free.nonzero a (sub a ha)

/-- A fold commits to its payloads: by induction backwards along both chains. -/
theorem foldl_injective (free : CollisionFree step start hashed) (ps qs : List π)
    (hps : ∀ a ∈ visited step start ps, a ∈ hashed)
    (hqs : ∀ a ∈ visited step start qs, a ∈ hashed)
    (same : ps.foldl step start = qs.foldl step start) : ps = qs := by
  induction ps using List.reverseRecOn generalizing qs with
  | nil =>
    cases qs using List.reverseRecOn with
    | nil => rfl
    | append_singleton qs q =>
      rw [List.foldl_append] at same
      refine absurd same.symm (free.nonzero (qs.foldl step start, q) (hqs _ ?_))
      rw [visited_append]
      exact List.mem_append_right _ List.mem_cons_self
  | append_singleton ps p ih =>
    rw [visited_append] at hps
    have hp := hps (ps.foldl step start, p) (List.mem_append_right _ List.mem_cons_self)
    cases qs using List.reverseRecOn with
    | nil =>
      rw [List.foldl_append] at same
      exact absurd same (free.nonzero _ hp)
    | append_singleton qs q =>
      rw [visited_append] at hqs
      have hq := hqs (qs.foldl step start, q) (List.mem_append_right _ List.mem_cons_self)
      rw [List.foldl_append, List.foldl_append] at same
      have pair := free.injective _ hp _ hq same
      have before : ps.foldl step start = qs.foldl step start := congrArg Prod.fst pair
      have last : p = q := congrArg Prod.snd pair
      rw [last, ih qs (fun a ha => hps a (List.mem_append_left _ ha))
        (fun a ha => hqs a (List.mem_append_left _ ha)) before]

/-- The list starts every chain from `start`. -/
def Intact (step : η → π → η) (start : η) (rows : List (Row κ π η)) : Prop :=
  Linked step (fun _ => start) rows

/-- What an intact list hashed. -/
def hashedOf (start : η) (rows : List (Row κ π η)) : List (η × π) := links (fun _ => start) rows

/-- The hashes of a chain. -/
def folds (step : η → π → η) : η → List π → List η
  | _, [] => []
  | h, p :: ps => step h p :: folds step (step h p) ps

theorem folds_append (h : η) (ps : List π) (p : π) :
    folds step h (ps ++ [p]) = folds step h ps ++ [(ps ++ [p]).foldl step h] := by
  induction ps generalizing h with
  | nil => rfl
  | cons q qs ih => simp only [List.cons_append, folds, ih, List.foldl_cons]

theorem mem_folds {h x : η} {ps : List π} (member : x ∈ folds step h ps) :
    ∃ qs, qs <+: ps ∧ qs ≠ [] ∧ x = qs.foldl step h := by
  induction ps generalizing h with
  | nil => cases member
  | cons p ps ih =>
    rcases List.mem_cons.mp member with rfl | deeper
    · exact ⟨[p], List.prefix_append [p] ps, by simp, rfl⟩
    · obtain ⟨qs, sub, _, value⟩ := ih deeper
      exact ⟨p :: qs, (List.prefix_cons_inj _).mpr sub, by simp, value⟩

omit [DecidableEq κ] in
theorem folds_of_chainFrom {h : η} {rows : List (Row κ π η)} (chain : ChainFrom step h rows) :
    rows.map Row.hash = folds step h (rows.map Row.payload) := by
  induction rows generalizing h with
  | nil => rfl
  | cons r rest ih =>
    obtain ⟨first, later⟩ := chain
    rw [List.map_cons, List.map_cons, folds, ih later, ← first]

theorem rowsOf_hashes {prev : κ → η} {rows : List (Row κ π η)} (linked : Linked step prev rows)
    (key : κ) : (rowsOf key rows).map Row.hash = folds step (prev key) (payloads key rows) :=
  folds_of_chainFrom (chainFrom_rowsOf step linked key)

/-- The hash of a row folds a nonempty prefix of the payloads of its key. -/
theorem hash_eq_fold {prev : κ → η} {rows : List (Row κ π η)} (linked : Linked step prev rows)
    {r : Row κ π η} (member : r ∈ rows) :
    ∃ ps, ps <+: payloads r.key rows ∧ ps ≠ [] ∧ r.hash = ps.foldl step (prev r.key) := by
  have mine : r ∈ rowsOf r.key rows := List.mem_filter.mpr ⟨member, by simp⟩
  have hashed : r.hash ∈ (rowsOf r.key rows).map Row.hash := List.mem_map_of_mem mine
  rw [rowsOf_hashes linked] at hashed
  exact mem_folds hashed

theorem folds_nodup (free : CollisionFree step start hashed) (ps : List π)
    (hps : ∀ a ∈ visited step start ps, a ∈ hashed) : (folds step start ps).Nodup := by
  induction ps using List.reverseRecOn with
  | nil => exact List.nodup_nil
  | append_singleton ps p ih =>
    have before : ∀ a ∈ visited step start ps, a ∈ hashed := by
      intro a ha
      apply hps a
      rw [visited_append]
      exact List.mem_append_left _ ha
    rw [folds_append, List.nodup_append]
    refine ⟨ih before, List.nodup_singleton _, ?_⟩
    intro x hx y hy same
    rw [List.mem_singleton.mp hy] at same
    obtain ⟨qs, sub, _, value⟩ := mem_folds hx
    rw [value] at same
    have whole := foldl_injective free qs (ps ++ [p])
      (fun a ha => before a (visited_mono step sub ha)) hps same
    have short := sub.length_le
    rw [whole, List.length_append, List.length_singleton] at short
    omega

/-- No hash of a chain is the one it starts from. -/
theorem folds_ne_start (free : CollisionFree step start hashed) {ps : List π}
    (hps : ∀ a ∈ visited step start ps, a ∈ hashed) : start ∉ folds step start ps := by
  intro member
  obtain ⟨qs, sub, nonempty, value⟩ := mem_folds member
  obtain ⟨init, p, rfl⟩ := (List.eq_nil_or_concat qs).resolve_left nonempty
  have link : (init.foldl step start, p) ∈ visited step start (init ++ [p]) := by
    rw [visited_append]
    exact List.mem_append_right _ List.mem_cons_self
  rw [List.concat_eq_append] at sub value
  rw [List.foldl_append] at value
  exact free.nonzero _ (hps _ (visited_mono step sub link)) value.symm

/-- A rearrangement that keeps every hash in its place is none. -/
theorem eq_of_perm_of_map_eq {α β : Type} {l l' : List α} (f : α → β) (perm : l'.Perm l)
    (nodup : (l.map f).Nodup) (same : l'.map f = l.map f) : l' = l := by
  have injective : ∀ a ∈ l, ∀ b ∈ l, f a = f b → a = b := List.inj_on_of_nodup_map nodup
  refine List.ext_getElem perm.length_eq fun i hi hi' => ?_
  refine injective _ (perm.subset (List.getElem_mem hi)) _ (List.getElem_mem hi') ?_
  have at_i := congrArg (fun hs => hs[i]?) same
  simpa [hi, hi'] using at_i

/-! What an adversary who keeps the stored hashes can do to an intact list. -/

section
variable {rows rows' : List (Row κ π η)} (intact : Intact step start rows)
  (intact' : Intact step start rows') (free : CollisionFree step start hashed)
  (hashes : ∀ a ∈ hashedOf start rows, a ∈ hashed)
  (hashes' : ∀ a ∈ hashedOf start rows', a ∈ hashed)

include intact in
theorem visited_hashed (hashes : ∀ a ∈ hashedOf start rows, a ∈ hashed) (key : κ) :
    ∀ a ∈ visited step start (payloads key rows), a ∈ hashed :=
  fun a ha => hashes a (visited_subset_links step intact key ha)

include intact intact' free hashes hashes'

/-- Equal heads, equal histories. -/
theorem payloads_eq_of_head {key : κ}
    (same : heads (fun _ => start) rows key = heads (fun _ => start) rows' key) :
    payloads key rows = payloads key rows' := by
  rw [heads_eq_foldl step intact, heads_eq_foldl step intact'] at same
  exact foldl_injective free _ _ (visited_hashed intact hashes key)
    (visited_hashed intact' hashes' key) same

/-- A stored hash fixes the payload of its row. -/
theorem payload_eq_of_hash {r r' : Row κ π η} (member : r ∈ rows) (member' : r' ∈ rows')
    (same : r.hash = r'.hash) : r.payload = r'.payload := by
  obtain ⟨before, among, value⟩ := link_of_mem step intact member
  obtain ⟨before', among', value'⟩ := link_of_mem step intact' member'
  rw [value, value'] at same
  exact congrArg Prod.snd
    (free.injective (before, r.payload) (hashes _ among) (before', r'.payload)
      (hashes' _ among') same)

/-- A chain whose last row is one of another intact list's is a prefix of its chain. -/
theorem payloads_prefixed {key : κ}
    (last : ∀ r, (rowsOf key rows').getLast? = some r →
      ∃ s ∈ rows, s.key = key ∧ s.hash = r.hash) :
    payloads key rows' <+: payloads key rows := by
  have head := heads_eq_getLast (fun _ => start) rows' key
  cases found : (rowsOf key rows').getLast? with
  | none =>
    rw [payloads, List.getLast?_eq_none_iff.mp found]
    exact List.nil_prefix
  | some r =>
    obtain ⟨s, member, rfl, hash⟩ := last r found
    obtain ⟨ps, sub, _, value⟩ := hash_eq_fold intact member
    rw [found, Option.map_some, Option.getD_some, heads_eq_foldl step intact', ← hash, value]
      at head
    rw [foldl_injective free _ ps (visited_hashed intact' hashes' s.key)
      (fun a ha => visited_hashed intact hashes s.key a (visited_mono step sub ha)) head]
    exact sub

theorem rowsOf_eq_of_perm (perm : rows'.Perm rows) (key : κ) :
    rowsOf key rows' = rowsOf key rows := by
  have permKey : (rowsOf key rows').Perm (rowsOf key rows) := perm.filter _
  have sub : payloads key rows' <+: payloads key rows := by
    apply payloads_prefixed intact intact' free hashes hashes'
    intro r found
    have member : r ∈ rowsOf key rows' := List.mem_of_getLast? found
    refine ⟨r, perm.subset (List.mem_of_mem_filter member), ?_, rfl⟩
    exact of_decide_eq_true (List.mem_filter.mp member).2
  have length : (payloads key rows').length = (payloads key rows).length := by
    rw [payloads, payloads, List.length_map, List.length_map, permKey.length_eq]
  have same : (rowsOf key rows').map Row.hash = (rowsOf key rows).map Row.hash := by
    rw [rowsOf_hashes intact, rowsOf_hashes intact', sub.eq_of_length length]
  have nodup : ((rowsOf key rows).map Row.hash).Nodup := by
    rw [rowsOf_hashes intact]
    exact folds_nodup free _ (visited_hashed intact hashes key)
  exact eq_of_perm_of_map_eq Row.hash permKey nodup same

theorem not_duplicated {r : Row κ π η} (member : r ∈ rows) : ¬rows'.Perm (r :: rows) := by
  intro perm
  have permKey : (rowsOf r.key rows').Perm (rowsOf r.key (r :: rows)) := perm.filter _
  have sub : payloads r.key rows' <+: payloads r.key rows := by
    apply payloads_prefixed intact intact' free hashes hashes'
    intro s found
    have memberS : s ∈ rowsOf r.key rows' := List.mem_of_getLast? found
    have key : s.key = r.key := of_decide_eq_true (List.mem_filter.mp memberS).2
    rcases List.mem_cons.mp (perm.subset (List.mem_of_mem_filter memberS)) with rfl | old
    · exact ⟨s, member, rfl, rfl⟩
    · exact ⟨s, old, key, rfl⟩
  have short := sub.length_le
  rw [rowsOf_cons_self] at permKey
  rw [payloads, payloads, List.length_map, List.length_map, permKey.length_eq,
    List.length_cons] at short
  omega

theorem not_deleted {r : Row κ π η} {before after : List (Row κ π η)}
    (split : rows = before ++ r :: after) (later : ∃ s ∈ after, s.key = r.key) :
    rows' ≠ before ++ after := by
  intro deleted
  obtain ⟨s, member, key⟩ := later
  have nonempty : rowsOf r.key after ≠ [] := by
    apply List.ne_nil_of_mem (a := s)
    exact List.mem_filter.mpr ⟨member, by simp [key]⟩
  have parts : rowsOf r.key rows = rowsOf r.key before ++ r :: rowsOf r.key after := by
    rw [split, rowsOf, List.filter_append]
    exact congrArg (rowsOf r.key before ++ ·) (rowsOf_cons_self r after)
  have parts' : rowsOf r.key rows' = rowsOf r.key before ++ rowsOf r.key after := by
    rw [deleted, rowsOf, List.filter_append]
    rfl
  have lastSame : (rowsOf r.key rows).getLast? = (rowsOf r.key rows').getLast? := by
    rw [parts, parts', List.getLast?_append_of_ne_nil _ (List.cons_ne_nil _ _),
      List.getLast?_append_of_ne_nil _ nonempty, List.getLast?_cons_of_ne_nil nonempty]
  have same : heads (fun _ => start) rows r.key = heads (fun _ => start) rows' r.key := by
    rw [heads_eq_getLast, heads_eq_getLast, lastSame]
  have lengths := congrArg List.length
    (payloads_eq_of_head intact intact' free hashes hashes' same)
  simp only [payloads, List.length_map, parts, parts', List.length_append,
    List.length_cons] at lengths
  omega

end
end
end HashChain
