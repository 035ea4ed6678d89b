import VolumeClaim.Proofs.Options.Spelling

/-!
# The order of items

Every flag sets its own part of the options, and names are kept apart from flags.  So items of
different kinds can change places: only the values of one flag count in their order, and the names
count in theirs.

* `Reordered`           the same items, those of one kind in the same order, spelled in any way;
* `Reordered.perm`      nothing is lost or added then;
* `optionsOf_eq`, `namesOf_eq` what is read off the items without a fault;
* `parse_reordered`     what the two command lines say.
-/

namespace VolumeClaim.Options

/-! ## What an item says -/

namespace Item

/-- the flag that an item sets; a name sets none -/
def flag? : Item → Option Flag
  | name _ _ => none
  | setting flag _ _ => some flag

/-- the name, or the value for the flag -/
def text : Item → Text
  | name t _ => t
  | setting _ value _ => value

/-- what an item says, however it is spelled -/
def content (item : Item) : Option Flag × Text := (item.flag?, item.text)

theorem fault?_eq (item : Item) :
    item.fault? = item.content.1.bind fun flag => Options.fault? flag item.content.2 := by
  cases item <;> rfl

end Item

/-- whether a content is of one kind: for one flag, or a name -/
def isOf (kind : Option Flag) (content : Option Flag × Text) : Bool := content.1 = kind

theorem isOf_iff {kind : Option Flag} {content : Option Flag × Text} :
    isOf kind content = true ↔ content.1 = kind := decide_eq_true_iff

/-- the contents of the items of one kind, from left to right -/
def contentsOf (kind : Option Flag) (items : List Item) : List (Option Flag × Text) :=
  (items.map Item.content).filter (isOf kind)

theorem contentsOf_cons (kind : Option Flag) (item : Item) (items : List Item) :
    contentsOf kind (item :: items) =
      (if item.flag? = kind then [item.content] else []) ++ contentsOf kind items := by
  unfold contentsOf
  rw [List.map_cons]
  by_cases h : item.flag? = kind
  · rw [if_pos h, List.filter_cons_of_pos (isOf_iff.mpr h), List.singleton_append]
  · rw [if_neg h, List.filter_cons_of_neg fun hof => h (isOf_iff.mp hof), List.nil_append]

theorem flatMap_names (items : List Item) :
    items.flatMap Item.names = (contentsOf none items).map Prod.snd := by
  induction items with
  | nil => rfl
  | cons item items ih =>
    rw [List.flatMap_cons, ih, contentsOf_cons, List.map_append]
    cases item <;> rfl

theorem latest?_flatMap_given (flag : Flag) (items : List Item) :
    latest? flag (items.flatMap Item.given) =
      (contentsOf (some flag) items).getLast?.map Prod.snd := by
  have hfilter : (items.flatMap Item.given).filter (fun e => e.1 = flag) =
      (contentsOf (some flag) items).map fun e => (flag, e.2) := by
    induction items with
    | nil => rfl
    | cons item items ih =>
      rw [List.flatMap_cons, List.filter_append, ih, contentsOf_cons, List.map_append]
      cases item with
      | name t plain => rfl
      | setting other value spelling =>
        by_cases h : other = flag
        · subst h
          simp [Item.given, Item.flag?, Item.content, Item.text]
        · simp [Item.given, Item.flag?, h]
  unfold latest?
  rw [hfilter, List.getLast?_map, Option.map_map]
  rfl

/-- the options are the last values, flag by flag -/
theorem ofGiven_congr {given others : List (Flag × Text)}
    (h : ∀ flag, latest? flag given = latest? flag others) : ofGiven given = ofGiven others := by
  unfold ofGiven
  simp only [h]

/-! ## Items in another order -/

/-- the same items, those of one kind in the same order; each may be spelled in another way -/
def Reordered (items others : List Item) : Prop :=
  ∀ kind, contentsOf kind items = contentsOf kind others

section
variable {items others : List Item} (h : Reordered items others)
include h

/-- nothing is lost or added -/
theorem Reordered.perm : (items.map Item.content).Perm (others.map Item.content) := by
  rw [List.perm_iff_count]
  intro e
  have hof : isOf e.1 e = true := isOf_iff.mpr rfl
  have hcount : (contentsOf e.1 items).count e = (contentsOf e.1 others).count e := by rw [h e.1]
  unfold contentsOf at hcount
  rwa [List.count_filter hof, List.count_filter hof] at hcount

theorem Reordered.optionsOf_eq : optionsOf items = optionsOf others := by
  apply ofGiven_congr
  intro flag
  rw [latest?_flatMap_given, latest?_flatMap_given, h (some flag)]

theorem Reordered.namesOf_eq (closing : Option (List Text)) :
    namesOf items closing = namesOf others closing := by
  unfold namesOf
  rw [flatMap_names, flatMap_names, h none]

theorem Reordered.faultless (hitems : ∀ item ∈ items, item.fault? = none) :
    ∀ item ∈ others, item.fault? = none := by
  intro other hother
  obtain ⟨item, hitem, hcontent⟩ :=
    List.mem_map.mp (h.perm.mem_iff.mpr (List.mem_map_of_mem hother))
  rw [Item.fault?_eq, ← hcontent, ← Item.fault?_eq]
  exact hitems item hitem

end

theorem Reordered.symm {items others : List Item} (h : Reordered items others) :
    Reordered others items := fun kind => (h kind).symm

/-! ## What the command lines say -/

theorem parse_of_faultless {items : List Item} (h : ∀ item ∈ items, item.fault? = none)
    (closing : Option (List Text)) : parse (spell items closing) =
      Progress.finish ⟨optionsOf items, namesOf items closing⟩ := by
  unfold parse spell
  rw [← Progress.after_nil, scan_items _ h, List.nil_append, scan_closing]
  rfl

theorem parse_of_faulty {items : List Item} (h : ¬ ∀ item ∈ items, item.fault? = none)
    (closing : Option (List Text)) : ∃ fault, parse (spell items closing) = .error fault := by
  -- the first item with a fault
  obtain ⟨item, hfind⟩ : ∃ item, items.find? (·.fault? ≠ none) = some item := by
    rw [← Option.isSome_iff_exists, List.find?_isSome]
    simpa using h
  obtain ⟨hfault, past, rest, rfl, hpast⟩ := List.find?_eq_some_iff_append.mp hfind
  obtain ⟨fault, hfault⟩ := Option.ne_none_iff_exists'.mp (of_decide_eq_true hfault)
  refine ⟨fault, ?_⟩
  have hbefore : ∀ i ∈ past, i.fault? = none := fun i hi => by simpa using hpast i hi
  unfold parse spell
  rw [List.flatMap_append, List.append_assoc, ← Progress.after_nil, scan_items _ hbefore,
    List.flatMap_cons, List.append_assoc, scan_item_of_fault _ hfault]
  rfl

/-- two results that are equal options, or faults which may differ -/
inductive SameResult : Except UsageFault Options → Except UsageFault Options → Prop where
  | ok (o : Options) : SameResult (.ok o) (.ok o)
  | error (fault other : UsageFault) : SameResult (.error fault) (.error other)

theorem SameResult.refl (result : Except UsageFault Options) : SameResult result result := by
  cases result with
  | error fault => exact .error fault fault
  | ok o => exact .ok o

/-- **The order of items of different kinds does not matter**: command lines written from the same
items say the same or are both refused, if the values of every flag come in the same order and so
do the names. -/
theorem parse_reordered {items others : List Item} (h : Reordered items others)
    (closing : Option (List Text)) :
    SameResult (parse (spell items closing)) (parse (spell others closing)) := by
  by_cases hitems : ∀ item ∈ items, item.fault? = none
  · rw [parse_of_faultless hitems, parse_of_faultless (h.faultless hitems), h.optionsOf_eq,
      h.namesOf_eq]
    exact .refl _
  · obtain ⟨fault, hfault⟩ := parse_of_faulty hitems closing
    obtain ⟨other, hother⟩ :=
      parse_of_faulty (fun hothers => hitems (h.symm.faultless hothers)) closing
    rw [hfault, hother]
    exact .error fault other

/-- the first value of the namespace looks like a flag, and each item is spelled anew -/
theorem parse_reordered_namespaces :
    let items : List Item :=
      [.setting .namespaceName (ascii "--output") (.letterSpaced (byte 'n') rfl rfl),
        .name (ascii "data") (.inr (by decide)), .setting .dryRun (ascii "client") (.alone rfl),
        .setting .namespaceName (ascii "b") .assigned]
    let others : List Item :=
      [.setting .dryRun (ascii "client") .assigned,
        .setting .namespaceName (ascii "--output") (.spaced rfl),
        .setting .namespaceName (ascii "b") (.letterJoined (byte 'n') rfl rfl (by decide)),
        .name (ascii "data") (.inr (by decide))]
    Reordered items others ∧
      SameResult (parse (["-n", "--output", "data", "--dry-run", "--namespace=b"].map ascii))
        (parse (["--dry-run=client", "--namespace", "--output", "-nb", "data"].map ascii)) := by
  intro items others
  have hreordered : Reordered items others := by
    intro kind
    cases kind with
    | none => rfl
    | some flag => cases flag <;> rfl
  exact ⟨hreordered, parse_reordered hreordered none⟩

/-- which fault is found first does depend on the order -/
example : parse (["--output=x", "--dry-run=y"].map ascii) = .error (.badOutputFormat (ascii "x")) ∧
    parse (["--dry-run=y", "--output=x"].map ascii) = .error (.badDryRun (ascii "y")) := by decide

end VolumeClaim.Options
