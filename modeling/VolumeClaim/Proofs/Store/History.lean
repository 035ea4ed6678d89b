import VolumeClaim.Proofs.Store.Creation

/-!
# What a store was asked and what it answered

A store serves calls one after another.  The history of that, every call with its reply, tells
what was created for good: `History.created`, and `History.first?` for one namespace and name.

* `Store.serve_induction`  what one call keeps, any number of calls keep;
* `Store.inNamespace_of_mem_created` what was created is a claim of its namespace and name.
-/

namespace VolumeClaim.Store

inductive Call where
  | create (namespaceName : Text) (c : Claim) (checkOnly : Bool)
  | get (namespaceName name : Text)

def Call.pair : Call → Text × Text
  | .create namespaceName c _ => (namespaceName, c.name)
  | .get namespaceName name => (namespaceName, name)

inductive Reply where
  | created (result : Except Fault Claim)
  | found (result : Except Fault (Option Claim))

def answer (s : Store) : Call → Reply × Store
  | .create namespaceName c checkOnly =>
    (.created (s.create namespaceName c checkOnly).1, (s.create namespaceName c checkOnly).2)
  | .get namespaceName name => (.found (s.get namespaceName name), s)

/-- calls with their replies, the first one first -/
abbrev History := List (Call × Reply)

/-- serves one call after another: what came of them, and the store in the end -/
def serve (s : Store) : List Call → History × Store
  | [] => ([], s)
  | call :: calls =>
    ((call, (s.answer call).1) :: ((s.answer call).2.serve calls).1,
      ((s.answer call).2.serve calls).2)

theorem serve_nil (s : Store) : s.serve [] = ([], s) := rfl

theorem serve_cons (s : Store) (call : Call) (calls : List Call) : s.serve (call :: calls) =
    ((call, (s.answer call).1) :: ((s.answer call).2.serve calls).1,
      ((s.answer call).2.serve calls).2) := rfl

theorem map_fst_serve (s : Store) (calls : List Call) : (s.serve calls).1.map Prod.fst = calls := by
  induction calls generalizing s with
  | nil => rfl
  | cons call calls ih => rw [serve_cons, List.map_cons, ih]

/-- a property of the history and the store that every call keeps -/
theorem serve_induction {P : History → Store → Prop}
    (step : ∀ past s call, P past s → P (past ++ [(call, (s.answer call).1)]) (s.answer call).2)
    {s : Store} (h : P [] s) (calls : List Call) : P (s.serve calls).1 (s.serve calls).2 := by
  suffices hrun : ∀ past s, P past s → P (past ++ (s.serve calls).1) (s.serve calls).2 from
    hrun [] s h
  clear h
  induction calls with
  | nil =>
    intro past s h
    rw [serve_nil, List.append_nil]
    exact h
  | cons call calls ih =>
    intro past s h
    have hrest := ih _ _ (step past s call h)
    rw [List.append_assoc] at hrest
    exact hrest

theorem nodup_map_concat {α β : Type} {f : α → β} {l : List α} {a : α} (h : (l.map f).Nodup)
    (fresh : ∀ b ∈ l, f b ≠ f a) : ((l ++ [a]).map f).Nodup := by
  rw [List.map_append, List.map_singleton, List.nodup_append]
  refine ⟨h, List.nodup_cons.mpr ⟨List.not_mem_nil, List.nodup_nil⟩, ?_⟩
  intro x hx y hy
  obtain ⟨b, hb, rfl⟩ := List.mem_map.mp hx
  rw [List.mem_singleton.mp hy]
  exact fresh b hb

namespace History

/-- a creation for good, as namespace, name and the claim that was answered -/
def creation? : Call × Reply → Option ((Text × Text) × Claim)
  | (.create namespaceName c false, .created (.ok x)) => some ((namespaceName, c.name), x)
  | _ => none

/-- all creations for good -/
def created (past : History) : List ((Text × Text) × Claim) := past.filterMap creation?

/-- the answer to the first creation for good under a namespace and a name -/
def first? (past : History) (namespaceName name : Text) : Option Claim :=
  past.created.lookup (namespaceName, name)

/-- what a call is answered by a store that keeps the first claim of each namespace and name -/
def reply (past : History) : Call → Reply
  | .create namespaceName c _ => .created
      (if (past.first? namespaceName c.name).isSome then .error (.alreadyExists c.name)
        else .ok (c.inNamespace namespaceName))
  | .get namespaceName name => .found (.ok (past.first? namespaceName name))

theorem creation?_get (namespaceName name : Text) (reply : Reply) :
    creation? (.get namespaceName name, reply) = none := rfl

theorem creation?_error (namespaceName : Text) (c : Claim) (checkOnly : Bool) (fault : Fault) :
    creation? (.create namespaceName c checkOnly, .created (.error fault)) = none := by
  cases checkOnly <;> rfl

theorem creation?_check (namespaceName : Text) (c : Claim) (reply : Reply) :
    creation? (.create namespaceName c true, reply) = none := rfl

theorem creation?_ok (namespaceName : Text) (c x : Claim) :
    creation? (.create namespaceName c false, .created (.ok x)) =
      some ((namespaceName, c.name), x) := rfl

theorem creation?_eq_some {call : Call} {reply : Reply} {x : (Text × Text) × Claim}
    (h : creation? (call, reply) = some x) : ∃ c, call = .create x.1.1 c false ∧
      c.name = x.1.2 ∧ reply = .created (.ok x.2) := by
  unfold creation? at h
  split at h
  · rename_i namespaceName c y heq
    obtain ⟨rfl, rfl⟩ := Prod.mk.inj heq
    cases h
    exact ⟨c, rfl, rfl, rfl⟩
  · cases h

section
variable {past : History}

theorem created_concat (past : History) (e : Call × Reply) :
    (past ++ [e]).created = past.created ++ (creation? e).toList := by
  unfold created
  rw [List.filterMap_append]
  cases h : creation? e with
  | none => rw [List.filterMap_cons_none h, List.filterMap_nil, Option.toList_none]
  | some x => rw [List.filterMap_cons_some h, List.filterMap_nil, Option.toList_some]

theorem created_concat_of_none {e : Call × Reply} (h : creation? e = none) :
    (past ++ [e]).created = past.created := by
  rw [created_concat, h, Option.toList_none, List.append_nil]

theorem created_concat_of_some {e : Call × Reply} {x : (Text × Text) × Claim}
    (h : creation? e = some x) : (past ++ [e]).created = past.created ++ [x] := by
  rw [created_concat, h, Option.toList_some]

end

end History

/-- a claim that was created has the namespace and the name that it was created under -/
theorem inNamespace_of_mem_created (s : Store) (calls : List Call) :
    ∀ e ∈ (s.serve calls).1.created,
      e.2.name = e.1.2 ∧ e.2.metadataOrEmpty.namespaceName = e.1.1 := by
  -- the invariant speaks of the history alone
  apply serve_induction (P := fun past _ => ∀ e ∈ past.created,
    e.2.name = e.1.2 ∧ e.2.metadataOrEmpty.namespaceName = e.1.1)
  · intro past s call hpast e he
    rw [History.created_concat, List.mem_append] at he
    rcases he with he | he
    · exact hpast e he
    · obtain ⟨c, rfl, hname, hreply⟩ := History.creation?_eq_some (Option.mem_toList.mp he)
      have hcreate : (s.create e.1.1 c false).1 = .ok e.2 := Reply.created.inj hreply
      rw [eq_of_create hcreate, ← hname]
      exact ⟨rfl, rfl⟩
  · intro e he
    exact absurd he List.not_mem_nil

end VolumeClaim.Store
