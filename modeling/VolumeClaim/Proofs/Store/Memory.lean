import VolumeClaim.Proofs.Store.History

/-!
# The store in memory as a map by key texts

The key text of a claim does not tell where its namespace ends, if the namespace or the name
holds a slash.  So the store is a map by key texts, and a map by namespaces and names only as far
as no two of them share a key.

* `MemoryStore.key_eq_key_iff` who shares a key;
* `MemoryStore.keeps_first_by_key` what the store answers after any number of calls;
* `MemoryStore.slash_shares_key` a claim that is refused, and found, for the sake of another one.
-/

namespace VolumeClaim.MemoryStore
open Store (Call History)

/-! ## Keys -/

/-- the namespace of the second pair goes on where the first pair has its name -/
def Overlaps (p q : Text × Text) : Prop :=
  ∃ middle, q.1 = p.1 ++ byte '/' :: middle ∧ p.2 = middle ++ byte '/' :: q.2

theorem key_eq_of_overlaps {p q : Text × Text} (h : Overlaps p q) :
    key p.1 p.2 = key q.1 q.2 := by
  obtain ⟨middle, hspace, hname⟩ := h
  rw [key, key, hspace, hname, List.append_assoc, List.cons_append]

theorem eq_or_overlaps {p q : Text × Text} {part : Text} (hspace : q.1 = p.1 ++ part)
    (hname : byte '/' :: p.2 = part ++ byte '/' :: q.2) : p = q ∨ Overlaps p q := by
  cases part with
  | nil =>
    rw [List.append_nil] at hspace
    rw [List.nil_append, List.cons.injEq] at hname
    exact .inl (Prod.ext hspace.symm hname.2)
  | cons b middle =>
    rw [List.cons_append, List.cons.injEq] at hname
    refine .inr ⟨middle, ?_, hname.2⟩
    rw [hspace, ← hname.1]

/-- the pairs are one, or a slash in them can be read in two ways -/
def SharesKey (p q : Text × Text) : Prop := p = q ∨ Overlaps p q ∨ Overlaps q p

theorem key_eq_key_iff {p q : Text × Text} :
    key p.1 p.2 = key q.1 q.2 ↔ SharesKey p q := by
  constructor
  · intro h
    rcases List.append_eq_append_iff.mp h with ⟨part, hspace, hname⟩ | ⟨part, hspace, hname⟩
    · exact (eq_or_overlaps hspace hname).imp_right .inl
    · exact (eq_or_overlaps hspace hname).imp Eq.symm .inr
  · rintro (rfl | h | h)
    · rfl
    · exact key_eq_of_overlaps h
    · exact (key_eq_of_overlaps h).symm

theorem eq_of_sharesKey {p q : Text × Text} (hp : byte '/' ∉ p.1) (hq : byte '/' ∉ q.1)
    (h : SharesKey p q) : p = q := by
  rcases h with h | ⟨middle, hspace, -⟩ | ⟨middle, hspace, -⟩
  · exact h
  · rw [hspace] at hq
    exact absurd (List.mem_append_right _ List.mem_cons_self) hq
  · rw [hspace] at hp
    exact absurd (List.mem_append_right _ List.mem_cons_self) hp

/-! ## Single calls -/

section
variable (m : MemoryStore) (namespaceName : Text) (c : Claim) (checkOnly : Bool)

theorem fst_create : (m.create namespaceName c checkOnly).1 =
    if (m.get? namespaceName c.name).isSome then .error (.alreadyExists c.name)
    else .ok (c.inNamespace namespaceName) := by
  have hcreation := m.creation_create namespaceName c checkOnly
  generalize m.create namespaceName c checkOnly = p at hcreation
  cases hcreation with
  | taken found => rw [found, Option.isSome_some, if_pos rfl]
  | checked vacant check => rw [vacant, Option.isSome_none, if_neg Bool.false_ne_true]
  | added vacant check => rw [vacant, Option.isSome_none, if_neg Bool.false_ne_true]

/-- a claim makes no difference to what has another key -/
theorem get?_create_of_ne {other name : Text}
    (h : ¬ SharesKey (namespaceName, c.name) (other, name)) :
    (m.create namespaceName c checkOnly).2.get? other name = m.get? other name := by
  have hcreation := m.creation_create namespaceName c checkOnly
  generalize m.create namespaceName c checkOnly = p at hcreation
  cases hcreation with
  | taken found => rfl
  | checked vacant check => rfl
  | added vacant check =>
    have hne : key other name ≠ key namespaceName c.name := fun hsame =>
      h (key_eq_key_iff.mp hsame.symm)
    unfold get?
    rw [List.lookup_append, List.lookup_cons, beq_false_of_ne hne, List.lookup_nil,
      Option.or_none]

end

/-! ## Histories -/

/-- the claims are those that were created, each under a key of its own -/
structure Recalls (m : MemoryStore) (created : List ((Text × Text) × Claim)) : Prop where
  claims : m.claims = created.map fun e => (key e.1.1 e.1.2, e.2)
  keys : (created.map fun e => key e.1.1 e.1.2).Nodup

theorem recalls_empty : empty.Recalls [] := ⟨rfl, List.nodup_nil⟩

section
variable {m : MemoryStore} {created : List ((Text × Text) × Claim)} (h : m.Recalls created)
include h

theorem Recalls.get?_eq_some_iff {namespaceName name : Text} {x : Claim} :
    m.get? namespaceName name = some x ↔
      ∃ e ∈ created, SharesKey e.1 (namespaceName, name) ∧ e.2 = x := by
  have hkeys : (m.claims.map Prod.fst).Nodup := by
    rw [h.claims, List.map_map]
    exact h.keys
  unfold get?
  rw [Keyed.lookup_eq_some_iff_mem hkeys, h.claims, List.mem_map]
  simp only [Prod.mk.injEq, ← key_eq_key_iff]

theorem Recalls.size : m.size = created.length := by
  unfold MemoryStore.size
  rw [h.claims, List.length_map]

theorem Recalls.distinct : (created.map Prod.fst).Nodup := by
  have hkeys := h.keys
  rw [List.nodup_iff_pairwise_ne, List.pairwise_map] at hkeys ⊢
  exact hkeys.imp fun hne heq => hne (by rw [heq])

/-- as long as nobody shares its key, a pair has the claim that was created under it -/
theorem Recalls.get?_eq_lookup {p : Text × Text}
    (apart : ∀ e ∈ created, SharesKey e.1 p → e.1 = p) :
    m.get? p.1 p.2 = created.lookup p := by
  apply Option.ext
  intro x
  rw [h.get?_eq_some_iff, Keyed.lookup_eq_some_iff_mem h.distinct]
  constructor
  · rintro ⟨e, he, hsame, rfl⟩
    rw [← apart e he hsame]
    exact he
  · intro he
    exact ⟨_, he, .inl rfl, rfl⟩

theorem Recalls.concat {namespaceName name : Text} (vacant : m.get? namespaceName name = none)
    (c : Claim) : Recalls ⟨m.claims ++ [(key namespaceName name, c)]⟩
      (created ++ [((namespaceName, name), c)]) := by
  constructor
  case claims => rw [h.claims, List.map_append, List.map_singleton]
  case keys =>
    apply Store.nodup_map_concat h.keys
    intro e he hsame
    have hfound := h.get?_eq_some_iff.mpr ⟨e, he, key_eq_key_iff.mp hsame, rfl⟩
    rw [vacant] at hfound
    cases hfound

end

theorem exists_recalls_answer {m : MemoryStore} {past : History} (h : m.Recalls past.created)
    (call : Call) : ∃ m', ((Store.memory m).answer call).2 = .memory m' ∧
      m'.Recalls (past ++ [(call, ((Store.memory m).answer call).1)]).created := by
  cases call with
  | get namespaceName name =>
    refine ⟨m, rfl, ?_⟩
    rw [History.created_concat_of_none (History.creation?_get _ _ _)]
    exact h
  | create namespaceName c checkOnly =>
    have hcreation := m.creation_create namespaceName c checkOnly
    unfold Store.answer Store.create
    dsimp only
    generalize m.create namespaceName c checkOnly = p at hcreation
    cases hcreation with
    | taken found =>
      refine ⟨m, rfl, ?_⟩
      rw [History.created_concat_of_none (History.creation?_error _ _ _ _)]
      exact h
    | checked vacant check =>
      subst check
      refine ⟨m, rfl, ?_⟩
      rw [History.created_concat_of_none (History.creation?_check _ _ _)]
      exact h
    | added vacant check =>
      subst check
      refine ⟨_, rfl, ?_⟩
      rw [History.created_concat_of_some (History.creation?_ok _ _ _)]
      exact h.concat vacant _

theorem exists_recalls_serve (calls : List Call) :
    ∃ m, ((Store.memory .empty).serve calls).2 = .memory m ∧
      m.Recalls ((Store.memory .empty).serve calls).1.created := by
  apply Store.serve_induction
    (P := fun past s => ∃ m, s = .memory m ∧ m.Recalls past.created)
  · rintro past s call ⟨m, rfl, h⟩
    exact exists_recalls_answer h call
  · exact ⟨.empty, rfl, recalls_empty⟩

/-- what a store in memory has kept of a history, and how it answers then -/
structure Contract (m : MemoryStore) (past : History) : Prop where
  size : m.size = past.created.length
  distinct : (past.created.map Prod.fst).Nodup
  titled : ∀ e ∈ past.created,
    e.2.name = e.1.2 ∧ e.2.metadataOrEmpty.namespaceName = e.1.1
  refused : ∀ namespaceName c checkOnly,
    (m.create namespaceName c checkOnly).1 = .error (.alreadyExists c.name) ↔
      ∃ e ∈ past.created, SharesKey e.1 (namespaceName, c.name)
  accepted : ∀ namespaceName c checkOnly,
    (m.create namespaceName c checkOnly).1 = .ok (c.inNamespace namespaceName) ↔
      ∀ e ∈ past.created, ¬ SharesKey e.1 (namespaceName, c.name)
  get : ∀ namespaceName name x, m.get? namespaceName name = some x ↔
    ∃ e ∈ past.created, SharesKey e.1 (namespaceName, name) ∧ e.2 = x
  /-- for a pair that nobody shares its key with, this is a map by namespaces and names -/
  apart : ∀ p : Text × Text, (∀ e ∈ past.created, SharesKey e.1 p → e.1 = p) →
    m.get? p.1 p.2 = past.first? p.1 p.2 ∧
      ∀ c checkOnly, c.name = p.2 → (m.create p.1 c checkOnly).1 =
        if (past.first? p.1 p.2).isSome then .error (.alreadyExists c.name)
        else .ok (c.inNamespace p.1)
  others : ∀ namespaceName c checkOnly other name,
    ¬ SharesKey (namespaceName, c.name) (other, name) →
      (m.create namespaceName c checkOnly).2.get? other name = m.get? other name

/-- **After any calls, a store in memory that was empty has the first claim of each key: a claim is
refused exactly if a claim was created under a pair that shares its key, and one is found exactly
for a pair that shares the key of its own.** -/
theorem keeps_first_by_key (calls : List Call) : ∃ past m,
    (Store.memory .empty).serve calls = (past, .memory m) ∧ past.map Prod.fst = calls ∧
      m.Contract past := by
  obtain ⟨m, hstore, h⟩ := exists_recalls_serve calls
  have hisSome : ∀ namespaceName name, (m.get? namespaceName name).isSome = true ↔
      ∃ e ∈ ((Store.memory .empty).serve calls).1.created,
        SharesKey e.1 (namespaceName, name) := by
    intro namespaceName name
    rw [Option.isSome_iff_exists]
    constructor
    · rintro ⟨x, hx⟩
      obtain ⟨e, he, hsame, -⟩ := h.get?_eq_some_iff.mp hx
      exact ⟨e, he, hsame⟩
    · rintro ⟨e, he, hsame⟩
      exact ⟨e.2, h.get?_eq_some_iff.mpr ⟨e, he, hsame, rfl⟩⟩
  refine ⟨_, m, Prod.ext rfl hstore, Store.map_fst_serve _ _, ?_⟩
  constructor
  case size => exact h.size
  case distinct => exact h.distinct
  case titled => exact Store.inNamespace_of_mem_created _ _
  case refused =>
    intro namespaceName c checkOnly
    rw [fst_create, ← hisSome]
    cases (m.get? namespaceName c.name).isSome <;> simp
  case accepted =>
    intro namespaceName c checkOnly
    have hnone := not_congr (hisSome namespaceName c.name)
    simp only [not_exists, not_and] at hnone
    rw [fst_create, ← hnone]
    cases (m.get? namespaceName c.name).isSome <;> simp
  case get => exact fun _ _ _ => h.get?_eq_some_iff
  case apart =>
    intro p hp
    have hget := h.get?_eq_lookup hp
    refine ⟨hget, fun c checkOnly hname => ?_⟩
    rw [fst_create, hname, hget]
    rfl
  case others => exact fun _ c checkOnly _ _ hne => get?_create_of_ne _ _ c checkOnly hne

/-- the claim `b/c` in the namespace `a` stands in the way of a claim `c` in the namespace `a/b`,
and is found in its place -/
theorem slash_shares_key :
    let c (name : String) : Claim :=
      { Claim.empty with metadata := some { Metadata.empty with name := ascii name } }
    let calls : List Call := [.create (ascii "a") (c "b/c") false]
    let past := ((Store.memory .empty).serve calls).1
    let m : MemoryStore := (MemoryStore.empty.create (ascii "a") (c "b/c") false).2
    ((Store.memory .empty).serve calls).2 = .memory m ∧
      past.first? (ascii "a/b") (ascii "c") = none ∧
      (m.create (ascii "a/b") (c "c") false).1 = .error (.alreadyExists (ascii "c")) ∧
      m.get? (ascii "a/b") (ascii "c") = some ((c "b/c").inNamespace (ascii "a")) := by
  intro c calls past m
  exact ⟨rfl, rfl, rfl, rfl⟩

end VolumeClaim.MemoryStore
