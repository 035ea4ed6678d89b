import VolumeClaim.Proofs.Node.ReadBack

/-!
# Claims written as nodes

The keys of a claim's value ascend, so the value comes back from its nodes with all of its keys;
its texts come back unless they are misread.

* `Claim.ordered_document` the keys ascend;
* `Claim.yaml_reads_back`  what comes back, and for which claims it is the value.
-/

namespace VolumeClaim
open Value (fields_textField fields_textsField fields_mapField fields_partField)

theorem Metadata.ordered_document (m : Metadata) : m.document.Ordered :=
  (((fields_mapField "annotations" m.annotations).append (fields_textField "name" m.name)).append
    (fields_textField "namespace" m.namespaceName)).ordered (by decide)

theorem Resources.ordered_document (r : Resources) : r.document.Ordered :=
  ((fields_mapField "limits" r.limits).append
    (fields_mapField "requests" r.requests)).ordered (by decide)

theorem ClaimSpec.ordered_document (s : ClaimSpec) : s.document.Ordered := by
  have htext : ∀ t, (Value.text t).Ordered := fun _ => trivial
  exact (((fields_textsField "accessModes" s.accessModes).append
    (fields_partField "resources" Resources.ordered_document s.resources)).append
    (fields_partField "storageClassName" htext s.storageClass)).ordered (by decide)

namespace Claim

theorem ordered_document (c : Claim) : c.document.Ordered :=
  ((((fields_textField "apiVersion" c.apiVersion).append (fields_textField "kind" c.kind)).append
    (fields_partField "metadata" Metadata.ordered_document c.metadata)).append
    (fields_partField "spec" ClaimSpec.ordered_document c.spec)).ordered (by decide)

/-- **A claim written as nodes is read back as its value, except that every misread text becomes a
number**; every other text stays itself, whether it was quoted or not. -/
theorem yaml_reads_back (c : Claim) :
    c.yaml.value = .ok (c.document.mapTexts Node.reread) ∧
    (∀ t, (Node.ofText t).value = .ok (Node.reread t) ∧
      (¬ Node.Misread t → Node.reread t = .text t) ∧
      (Node.Misread t → ∃ x, Node.reread t = .number x)) ∧
    (c.yaml.value = .ok c.document ↔ ∀ t ∈ c.document.texts, ¬ Node.Misread t) := by
  have hvalue : c.yaml.value = .ok (c.document.mapTexts Node.reread) :=
    Value.value_yaml c.document c.noNumbers_document c.ordered_document
  refine ⟨hvalue, ?_, ?_⟩
  · exact fun t =>
      ⟨Node.value_ofText t, Node.reread_of_not_misread, Node.reread_of_misread⟩
  · rw [hvalue, Except.ok.injEq, Value.mapTexts_eq_self_iff]
    exact forall₂_congr fun t _ => Node.reread_eq_text_iff t

/-- the name `0x10` is written without quotes and read as sixteen -/
theorem hexadecimal_name_becomes_number :
    let c : Claim := { empty with metadata := some { Metadata.empty with name := ascii "0x10" } }
    c.document = .object [(ascii "metadata", .object [(ascii "name", .text (ascii "0x10"))])] ∧
      c.yaml = .map [(.plain (ascii "metadata"),
        .map [(.plain (ascii "name"), .plain (ascii "0x10"))])] ∧
      c.yaml.value = .ok (.object [(ascii "metadata",
        .object [(ascii "name", .number ⟨0x4030000000000000⟩)])]) ∧
      c.yaml.value ≠ .ok c.document := by
  intro c
  have hdocument : c.document =
    .object [(ascii "metadata", .object [(ascii "name", .text (ascii "0x10"))])] := rfl
  have hnumber : Node.number? (ascii "0x10") = some ⟨0x4030000000000000⟩ := by decide +kernel
  have hsixteen : Node.reread (ascii "0x10") = .number ⟨0x4030000000000000⟩ := by
    rw [Node.reread, Node.plainValue_of_needsQuotes (by decide), hnumber]
    rfl
  have hvalue : c.yaml.value = .ok (.object [(ascii "metadata",
      .object [(ascii "name", .number ⟨0x4030000000000000⟩)])]) := by
    rw [← hsixteen]
    exact Value.value_yaml c.document c.noNumbers_document c.ordered_document
  refine ⟨hdocument, rfl, hvalue, ?_⟩
  rw [hvalue, hdocument]
  simp

end Claim
end VolumeClaim
