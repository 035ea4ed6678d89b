import VolumeClaim.Proofs.Node.Order
import VolumeClaim.Proofs.Settings.Document

/-!
# Settings and the order of entries

A configuration file says the same in whatever order its entries stand: the ones of the file, of a
section, and of a mapping somewhere in a section that is not known.

* `Settings.ofNode_eq_of_shuffled` for a document;
* `Settings.load_ignores_order`    for the file at a path, and what counts if a key is given twice.
-/

namespace VolumeClaim.Settings
open Node

theorem ofNode_eq_of_shuffled {document other : Node} (h : document.Shuffled other)
    (distinct : document.Distinct) : ofNode document = ofNode other := by
  induction h with
  | refl => rfl
  | trans h _ ih ih' => exact (ih distinct).trans (ih' (h.distinct distinct))
  | order h => rw [ofNode_map, ofNode_map, (Shuffled.order h).value_eq distinct]
  -- a sequence is refused, whatever is in it
  | item _ _ _ _ => rfl
  | key before after item h _ =>
    rw [ofNode_map, ofNode_map, (Shuffled.key before after item h).value_eq distinct]
  | value before after key h _ =>
    rw [ofNode_map, ofNode_map, (Shuffled.value before after key h).value_eq distinct]

/-- **The order of entries does not show** in what is loaded: a document in which no mapping gives a
key twice is loaded as any document with the entries of its mappings in another order, with the same
settings, or both are refused.  If a mapping has a value and gives a key twice, then the last entry
with that key says what is under it. -/
theorem load_ignores_order :
    (∀ (documents others : Documents) (path : Text) (document other : Node),
      documents.lookup path = some document → others.lookup path = some other →
      document.Distinct → document.Shuffled other →
        load documents path = load others path) ∧
      ∀ (before after : List (Node × Node)) (tag key : Text) (item : Node) (v : Value),
        (Node.map (before ++ (.scalar tag key, item) :: after)).value = .ok v →
        key ∉ keyTexts after →
          ∃ fields w, v = .object fields ∧ item.value = .ok w ∧ fields.lookup key = some w := by
  constructor
  · intro documents others path document other hdocument hother distinct h
    rw [load, load, hdocument, hother]
    show (ofNode document).mapError _ = (ofNode other).mapError _
    rw [ofNode_eq_of_shuffled h distinct]
  · intro before after tag key item v hv hkey
    obtain ⟨fields, -, rfl⟩ := value_map_eq_ok_iff.mp hv
    obtain ⟨w, hw, hlookup⟩ := value_of_last_entry hv hkey
    exact ⟨_, w, rfl, hw, hlookup⟩

/-- sections and fields in one order -/
def givenDocument : Node :=
  .map [
    (plain (ascii "context"), .map [(plain (ascii "namespace"), quoted (ascii "team"))]),
    (plain (ascii "logging"), .map [
      (plain (ascii "level"), plain (ascii "info")),
      (plain (ascii "pattern"), quoted (ascii "%v"))])]

/-- and both in the other one -/
def turnedDocument : Node :=
  .map [
    (plain (ascii "logging"), .map [
      (plain (ascii "pattern"), quoted (ascii "%v")),
      (plain (ascii "level"), plain (ascii "info"))]),
    (plain (ascii "context"), .map [(plain (ascii "namespace"), quoted (ascii "team"))])]

theorem shuffled_turnedDocument : givenDocument.Shuffled turnedDocument :=
  .trans (.order (.swap _ _ [])) (.value [] _ _ (.order (.swap _ _ [])))

theorem distinct_givenDocument : givenDocument.Distinct := by
  refine .map (by decide) (List.forall_mem_cons.mpr ⟨?_, List.forall_mem_singleton.mpr ?_⟩)
  · exact .map (by decide) (List.forall_mem_singleton.mpr (.scalar _ _))
  · exact .map (by decide) (List.forall_mem_cons.mpr
      ⟨.scalar _ _, List.forall_mem_singleton.mpr (.scalar _ _)⟩)

/-- a mapping that gives one key twice -/
def givenTwice : Node :=
  .map [(plain (ascii "level"), quoted (ascii "a")), (plain (ascii "level"), quoted (ascii "b"))]

theorem load_ignores_order_turned :
    load [(ascii "c.yaml", givenDocument)] (ascii "c.yaml") =
        load [(ascii "c.yaml", turnedDocument)] (ascii "c.yaml") ∧
      load [(ascii "c.yaml", givenDocument)] (ascii "c.yaml") =
        .ok ⟨ascii "info", ascii "%v", ascii "team", []⟩ ∧
      ∃ fields, givenTwice.value = .ok (.object fields) ∧
        fields.lookup (ascii "level") = some (.text (ascii "b")) := by
  obtain ⟨hload, htwice⟩ := load_ignores_order
  refine ⟨hload _ _ _ _ _ rfl rfl distinct_givenDocument shuffled_turnedDocument, rfl, ?_⟩
  have hvalue : givenTwice.value = .ok (.object [(ascii "level", .text (ascii "b"))]) := rfl
  have hb : (quoted (ascii "b")).value = .ok (.text (ascii "b")) := rfl
  obtain ⟨fields, w, hfields, hw, hlookup⟩ :=
    htwice [(plain (ascii "level"), quoted (ascii "a"))] [] _ _ _ _ hvalue (by decide)
  rw [hb] at hw
  cases hw
  exact ⟨fields, hfields ▸ hvalue, hlookup⟩

end VolumeClaim.Settings
