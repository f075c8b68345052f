import Mathlib.Data.List.Forall2
import Postal.Event.Json
import Postal.Phase.Json
import Postal.Proofs.Members
import Postal.Report.Json

/-!
# What is written is read again, with the members of objects in any order.

Every type that is written as JSON is read back from its text, and so it is from the text of any
value with the same members in another order, on every level.

* §1 — values that differ in the order of members.
* §2 — decoders that find a value in whatever differs so from how it is written: leaves, lists,
  records.
* §3 — ids of runs.
* §4 — events, whose kind may stand anywhere.
* §5 — the types, and what they hold: numbers as large as a word, or as a stamp.
-/

namespace Postal

namespace Json

/-! ## §1 — The order of members. -/

mutual

/-- Two values that differ in the order of members only, on whatever level. -/
inductive Value.Shuffled : Value → Value → Prop
  | null : Shuffled .null .null
  | number (n : Nat) : Shuffled (.number n) (.number n)
  | string (s : String) : Shuffled (.string s) (.string s)
  | array {vs ws : List Value} (items : Value.ShuffledItems vs ws) :
      Shuffled (.array vs) (.array ws)
  | object {ms ns os : List (String × Value)} (members : Value.ShuffledMembers ms ns)
      (order : ns.Perm os) : Shuffled (.object ms) (.object os)

/-- Items that differ so one by one. -/
inductive Value.ShuffledItems : List Value → List Value → Prop
  | nil : ShuffledItems [] []
  | cons {v w : Value} {vs ws : List Value} (item : Value.Shuffled v w)
      (items : Value.ShuffledItems vs ws) : ShuffledItems (v :: vs) (w :: ws)

/-- Members of the same keys, whose values differ so one by one. -/
inductive Value.ShuffledMembers : List (String × Value) → List (String × Value) → Prop
  | nil : ShuffledMembers [] []
  | cons {key : String} {v w : Value} {ms ns : List (String × Value)} (value : Value.Shuffled v w)
      (members : Value.ShuffledMembers ms ns) : ShuffledMembers ((key, v) :: ms) ((key, w) :: ns)

end

namespace Value

mutual

/-- A value differs from itself in nothing. -/
theorem shuffled_self : (v : Value) → v.Shuffled v
  | .null => .null
  | .number n => .number n
  | .string s => .string s
  | .array vs => .array (shuffledItems_self vs)
  | .object ms => .object (shuffledMembers_self ms) (.refl ms)

theorem shuffledItems_self : (vs : List Value) → ShuffledItems vs vs
  | [] => .nil
  | v :: vs => .cons (shuffled_self v) (shuffledItems_self vs)

theorem shuffledMembers_self : (ms : List (String × Value)) → ShuffledMembers ms ms
  | [] => .nil
  | (_, v) :: ms => .cons (shuffled_self v) (shuffledMembers_self ms)

end

end Value

/-- A decoder finds a value in what it is written as, and in whatever differs from that in the order
of members only. -/
def Decodes {A : Type} (d : Decoder A) (v : Value) (a : A) : Prop :=
  ∀ w, v.Shuffled w → d w.node = .ok a

/-! ## §2 — Leaves, lists and records. -/

theorem decodes_number {A : Type} {d : Decoder A} {n : Nat} {a : A}
    (h : d (.number (.ofNat n)) = .ok a) : Decodes d (.number n) a := by
  intro w hw
  cases hw
  exact h

theorem decodes_string {A : Type} {d : Decoder A} {s : String} {a : A}
    (h : d (.string (.ofString s)) = .ok a) : Decodes d (.string s) a := by
  intro w hw
  cases hw
  exact h

theorem decodes_word {kind : String} {n : Nat} (hn : n ≤ wordMax) :
    Decodes (word kind) (.number n) n :=
  decodes_number (by rw [word, number_ofNat hn]; rfl)

theorem decodes_stamp {n : Nat} (hn : n ≤ stampMax) : Decodes stamp (.number n) n :=
  decodes_number (by simp [stamp, Numeral.ofNat, decimalValue_toDigits, Nat.not_lt.mpr hn])

theorem decodes_oneOf {A : Type} {known : List (String × A)} {name : String} {a : A}
    (h : known.lookup name = some a) : Decodes (oneOf known) (.string name) a :=
  decodes_string (by simp [oneOf, alternative, h, bind, Except.bind])

theorem decodes_map {A B : Type} {d : Decoder A} {v : Value} {a : A} (f : A → B)
    (h : Decodes d v a) : Decodes (fun n => (d n).map f) v (f a) := by
  intro w hw
  change (d w.node).map f = _
  rw [h w hw]
  rfl

theorem decodes_null {A : Type} {d : Decoder A} : Decodes (orNull d) .null none := by
  intro w hw
  cases hw
  rfl

theorem decodes_some {A : Type} {d : Decoder A} {n : Nat} {a : A}
    (h : Decodes d (.number n) a) : Decodes (orNull d) (.number n) (some a) := by
  intro w hw
  cases hw
  change (d (Value.number n).node).map some = _
  rw [h _ (.number n)]
  rfl

/-- A list is found when its items are. -/
theorem decodes_list {A : Type} {d : Decoder A} {f : A → Value} {as : List A}
    (h : ∀ a ∈ as, Decodes d (f a) a) : Decodes (list d) (.array (as.map f)) as := by
  intro w hw
  cases hw with
  | @array _ ws items =>
    have hitems : (Value.nodes ws).mapM d = .ok as := by
      induction as generalizing ws with
      | nil =>
        cases items
        rfl
      | cons a as ih =>
        cases items with
        | cons item items =>
          rw [Value.nodes, List.mapM_cons, h a List.mem_cons_self _ item,
            ih (fun b hb => h b (List.mem_cons_of_mem a hb)) items]
          rfl
    rw [Value.node, list, hitems]
    rfl

/-- The members that a record is written as: each field by its name, in the order of the fields,
with a value in which its decoder finds it. -/
def Fields.Shows : {R D : Type} → Fields Node R D → R → List (String × Value) → Prop
  | _, _, .none, _, ms => ms = []
  | _, _, .field name decode _ rest, (a, r), ms =>
    ∃ v ms', ms = (name, v) :: ms' ∧ Decodes decode v a ∧ rest.Shows r ms'

/-- Members with the trees of their values. -/
def trees (ms : List (String × Value)) : List (String × Node) := ms.map fun m => (m.1, m.2.node)

/-- A name that is no field's says nothing of the record. -/
theorem Fields.gives_other {Src R D : Type} {fs : Fields Src R D} {key : String}
    (hkey : key ∉ fs.names) {src : Src} {ps : List (String × Src)} {r : R} :
    fs.Gives ((key, src) :: ps) r ↔ fs.Gives ps r := by
  induction fs with
  | none => exact Iff.rfl
  | field name decode fallback rest ih =>
    obtain ⟨hne, hrest⟩ := List.ne_and_not_mem_of_not_mem_cons hkey
    rw [Gives, Gives, valuesOf_cons_of_ne hne, ih hrest]

theorem Fields.Shows.names {R D : Type} {fs : Fields Node R D} {r : R}
    {ms : List (String × Value)} (h : fs.Shows r ms) : ms.map (·.1) = fs.names := by
  induction fs generalizing ms with
  | none =>
    rw [show ms = [] from h]
    rfl
  | field name decode fallback rest ih =>
    obtain ⟨v, ms', rfl, _, hrest⟩ := h
    rw [List.map_cons, ih hrest]
    rfl

theorem Value.ShuffledMembers.names {ms ns : List (String × Value)} (h : ShuffledMembers ms ns) :
    ns.map (·.1) = ms.map (·.1) := by
  induction ns generalizing ms with
  | nil =>
    cases h
    rfl
  | cons n ns ih =>
    cases h with
    | cons value members => rw [List.map_cons, List.map_cons, ih members]

theorem valuesOf_trees_of_not_mem {name : String} {ms : List (String × Value)}
    (h : name ∉ ms.map (·.1)) : valuesOf name (trees ms) = [] := by
  induction ms with
  | nil => rfl
  | cons m ms ih =>
    obtain ⟨hne, hrest⟩ := List.ne_and_not_mem_of_not_mem_cons h
    rw [trees, List.map_cons, valuesOf_cons_of_ne (Ne.symm hne)]
    exact ih hrest

/-- Members in the order of the fields give the record. -/
theorem Fields.Shows.gives {R D : Type} {fs : Fields Node R D} (hnames : fs.names.Nodup) {r : R}
    {ms ns : List (String × Value)} (h : fs.Shows r ms) (hns : Value.ShuffledMembers ms ns) :
    fs.Gives (trees ns) r := by
  induction fs generalizing ms ns with
  | none => trivial
  | field name decode fallback rest ih =>
    obtain ⟨hname, hrest⟩ := List.nodup_cons.mp hnames
    obtain ⟨v, ms', rfl, hv, hshows⟩ := h
    cases hns with
    | @cons _ _ w _ ns value members =>
      have hnone : valuesOf name (trees ns) = [] := by
        refine valuesOf_trees_of_not_mem ?_
        rw [members.names, hshows.names]
        exact hname
      rw [trees, List.map_cons, Gives, valuesOf_cons_self, gives_other hname]
      refine ⟨?_, ih hrest hshows members⟩
      change Tells decode fallback _ (w.node :: valuesOf name (trees ns))
      rw [hnone]
      exact hv w value

theorem named_members (ms : List (String × Value)) : Named (Value.memberNodes ms) (trees ms) := by
  induction ms with
  | nil => exact .nil
  | cons m ms ih => exact .cons ⟨text_ofString m.1, rfl⟩ ih

theorem proper_node (v : Value) : v.node.error? = none := v.written.proper

theorem proper_members (ms : List (String × Value)) :
    ∀ m ∈ Value.memberNodes ms, m.2.error? = none := by
  intro m hm
  rw [Value.memberNodes_eq] at hm
  obtain ⟨m', _, rfl⟩ := List.mem_map.mp hm
  exact proper_node m'.2

/-- **A record is found in what it is written as**, with its members in any order. -/
theorem decodes_record {R D : Type} {kind : String} {fs : Fields Node R D}
    (hnames : fs.names.Nodup) {r : R} {ms : List (String × Value)} (h : fs.Shows r ms) :
    Decodes (record kind fs) (.object ms) r := by
  intro w hw
  cases hw with
  | @object _ ns os members order =>
    have hgives : fs.Gives (trees os) r := (h.gives hnames members).perm (order.map _)
    exact (record_object hnames (named_members os) (proper_members os)).mpr hgives

end Json

/-! ## §3 — Ids of runs. -/

namespace RunId

theorem hexDigit?_digitChar : ∀ n < 16, Json.hexDigit? n.digitChar = some n := by decide +kernel

theorem utf8Size_digitChar : ∀ n < 16, n.digitChar.utf8Size = 1 := by decide +kernel

theorem length_hexDigits (count n : Nat) : (hexDigits count n).length = count := by
  induction count generalizing n with
  | zero => rfl
  | succ count ih => rw [hexDigits, List.length_append, ih, List.length_singleton]

/-- Digits stand for the number they are of, as far as they go. -/
theorem hexValue?_hexDigits (count n : Nat) :
    Json.hexValue? (hexDigits count n) = some (n % Nat.pow 16 count) := by
  induction count generalizing n with
  | zero =>
    change some 0 = some (n % 1)
    rw [Nat.mod_one]
  | succ count ih =>
    have ih := ih (n / 16)
    rw [Json.hexValue?] at ih ⊢
    rw [hexDigits, List.foldlM_append, ih]
    simp only [Option.bind_eq_bind, Option.bind_some, List.foldlM_cons, List.foldlM_nil,
      hexDigit?_digitChar _ (Nat.mod_lt n (by omega)), Option.map_some, Option.pure_def,
      Option.some.injEq]
    have hpow : Nat.pow 16 (count + 1) = 16 * Nat.pow 16 count := Nat.pow_succ'
    rw [hpow, Nat.mod_mul]
    omega

theorem utf8Size_of_mem_hexDigits {count n : Nat} {c : Char} (h : c ∈ hexDigits count n) :
    c.utf8Size = 1 := by
  induction count generalizing n with
  | zero => cases h
  | succ count ih =>
    rw [hexDigits, List.mem_append, List.mem_singleton] at h
    obtain h | rfl := h
    · exact ih h
    · exact utf8Size_digitChar _ (Nat.mod_lt n (by omega))

theorem byteSize_of_ascii {cs : List Char} (h : ∀ c ∈ cs, c.utf8Size = 1) :
    Text.byteSize cs = cs.length := by
  induction cs with
  | nil => rfl
  | cons c cs ih =>
    rw [Text.byteSize, h c List.mem_cons_self, ih fun d hd => h d (List.mem_cons_of_mem c hd),
      List.length_cons]
    omega

/-- Groups of the proper lengths with hyphens between them. -/
theorem grouped?_groups {a b c d e : List Char} (ha : a.length = 8) (hb : b.length = 4)
    (hc : c.length = 4) (hd : d.length = 4) (he : e.length = 12) :
    grouped? (a ++ '-' :: (b ++ '-' :: (c ++ '-' :: (d ++ '-' :: e)))) =
      Json.hexValue? (a ++ (b ++ (c ++ (d ++ e)))) := by
  simp [grouped?, List.drop_append, List.getElem?_append,
    List.drop_eq_nil_of_le, ha, hb, hc, hd, he]

/-- **An id is read from its text.** -/
theorem ofText_text {id : RunId} (h : id.value < Nat.pow 2 128) : ofText id.text = .ok id := by
  let ds := hexDigits 32 id.value
  have hlength : ds.length = 32 := length_hexDigits 32 id.value
  let cs := ds.take 8 ++ '-' :: ((ds.drop 8).take 4 ++ '-' :: ((ds.drop 12).take 4 ++
    '-' :: ((ds.drop 16).take 4 ++ '-' :: ds.drop 20)))
  have hcs : id.text.toList = cs := by
    simp [text, cs, ds]
  have hascii : ∀ c ∈ cs, c.utf8Size = 1 := by
    intro c hc
    have hmem : c = '-' ∨ c ∈ ds := by
      simp only [cs, List.mem_append, List.mem_cons] at hc
      obtain hc | hc | hc | hc | hc | hc | hc | hc | hc := hc
      · exact .inr (List.mem_of_mem_take hc)
      · exact .inl hc
      · exact .inr (List.mem_of_mem_drop (List.mem_of_mem_take hc))
      · exact .inl hc
      · exact .inr (List.mem_of_mem_drop (List.mem_of_mem_take hc))
      · exact .inl hc
      · exact .inr (List.mem_of_mem_drop (List.mem_of_mem_take hc))
      · exact .inl hc
      · exact .inr (List.mem_of_mem_drop hc)
    obtain rfl | hmem := hmem
    · decide
    · exact utf8Size_of_mem_hexDigits hmem
  have hsize : cs.length = 36 := by simp [cs, hlength]
  have hoffer : (offer cs).inner = cs := by
    simp [offer, byteSize_of_ascii hascii, hsize]
  have hgroups : Json.hexValue? (ds.take 8 ++ ((ds.drop 8).take 4 ++ ((ds.drop 12).take 4 ++
      ((ds.drop 16).take 4 ++ ds.drop 20)))) = some id.value := by
    have hjoin : ds.take 8 ++ ((ds.drop 8).take 4 ++ ((ds.drop 12).take 4 ++
        ((ds.drop 16).take 4 ++ ds.drop 20))) = ds := by
      have h₁ := List.take_append_drop 4 (ds.drop 16)
      have h₂ := List.take_append_drop 4 (ds.drop 12)
      have h₃ := List.take_append_drop 4 (ds.drop 8)
      rw [List.drop_drop] at h₁ h₂ h₃
      rw [h₁, h₂, h₃, List.take_append_drop]
    have hfits : id.value < Nat.pow 16 32 := h
    rw [hjoin, hexValue?_hexDigits, Nat.mod_eq_of_lt hfits]
  have hvalue : value? cs = some id.value := by
    rw [value?, if_neg (by omega), hoffer]
    rw [grouped?_groups (by simp [hlength]) (by simp [hlength]) (by simp [hlength])
      (by simp [hlength]) (by simp [hlength])]
    exact hgroups
  rw [ofText, hcs, hvalue]

end RunId

/-! ## §4 — Events. -/

namespace Json

/-- A member whose value is a number of one word or a string. -/
def IsLeaf (m : String × Value) : Prop :=
  (∃ n, m.2 = .number n ∧ n ≤ wordMax) ∨ ∃ s, m.2 = .string s

/-- What is taken in of a number or a string. -/
def leafContent : Value → Content
  | .number n => .number (.natural n)
  | .string s => .string s
  | _ => .null

theorem takenIn_leaf {m : String × Value} (h : IsLeaf m) (left : Nat) :
    TakenIn left (m.1, m.2.node) (m.1, leafContent m.2) := by
  obtain ⟨name, v⟩ := m
  obtain ⟨n, rfl, hn⟩ | ⟨s, rfl⟩ := h
  · refine ⟨rfl, ?_⟩
    change ((Numeral.ofNat n).number).map Content.number = _
    rw [number_ofNat hn]
    rfl
  · refine ⟨rfl, ?_⟩
    change ((Quoted.ofString s).text).map Content.string = _
    rw [text_ofString]
    rfl

/-- Leaves have nothing that could stand in another order. -/
theorem shuffled_leaves {ms ns : List (String × Value)} (h : ∀ m ∈ ms, IsLeaf m)
    (hns : Value.ShuffledMembers ms ns) : ns = ms := by
  induction ms generalizing ns with
  | nil =>
    cases hns
    rfl
  | cons m ms ih =>
    cases hns with
    | cons value members =>
      rw [ih (fun m' hm' => h m' (List.mem_cons_of_mem _ hm')) members]
      obtain ⟨n, hn, _⟩ | ⟨s, hs⟩ := h _ List.mem_cons_self
      · obtain rfl : _ = Value.number n := hn
        cases value
        rfl
      · obtain rfl : _ = Value.string s := hs
        cases value
        rfl

theorem beside_trees (tag : String) (ms : List (String × Value)) :
    beside tag (trees ms) = trees (ms.filter fun m => m.1 ≠ tag) := by
  rw [beside, trees, trees, List.filter_map]
  rfl

/-- **A value with a tag is found in what it is written as**, wherever its tag stands: the other
members have to give it. -/
theorem decodes_tagged {A : Type} {kind tag name : String} {variants : List (Variant A)}
    {left : Nat} {v : Variant A} {ms : List (String × Value)} {a : A} (hleft : 1 < left)
    (hv : variants.find? (fun v => v.name == name) = some v) (htag : tag ∉ ms.map (·.1))
    (hms : ∀ m ∈ ms, IsLeaf m)
    (ha : ∀ cs : List (String × Content), (ms.map fun m => (m.1, leafContent m.2)).Perm cs →
      v.ofMembers cs = .ok a) :
    Decodes (tagged kind tag variants left) (.object ((tag, .string name) :: ms)) a := by
  intro w hw
  cases hw with
  | @object _ ns os members order =>
    have hleaves : ∀ m ∈ (tag, Value.string name) :: ms, IsLeaf m := by
      intro m hm
      obtain rfl | hm := List.mem_cons.mp hm
      · exact .inr ⟨name, rfl⟩
      · exact hms m hm
    obtain rfl : ns = (tag, .string name) :: ms := shuffled_leaves hleaves members
    -- The tag is the only member of its name, whatever the order.
    have hvalues : valuesOf tag (trees os) = [(Value.string name).node] := by
      have hperm := valuesOf_perm tag (order.map fun m => (m.1, m.2.node))
      rw [List.map_cons, valuesOf_cons_self] at hperm
      change ((Value.string name).node :: valuesOf tag (trees ms)).Perm _ at hperm
      rw [valuesOf_trees_of_not_mem htag] at hperm
      exact (List.singleton_perm.mp hperm).symm
    have hbeside : ((tag, Value.string name) :: ms).filter (fun m => m.1 ≠ tag) = ms := by
      rw [List.filter_cons_of_neg (by simp), List.filter_eq_self]
      intro m hm
      have : m.1 ≠ tag := fun h => htag (h ▸ List.mem_map_of_mem hm)
      simpa using this
    have hothers : ms.Perm (os.filter fun m => m.1 ≠ tag) := by
      have hperm := order.filter fun m => m.1 ≠ tag
      rwa [hbeside] at hperm
    have htaken : List.Forall₂ (TakenIn (left - 1)) (beside tag (trees os))
        ((os.filter fun m => m.1 ≠ tag).map fun m => (m.1, leafContent m.2)) := by
      rw [beside_trees, trees, List.forall₂_map_left_iff, List.forall₂_map_right_iff,
        List.forall₂_same]
      intro m hm
      exact takenIn_leaf (hms m (hothers.mem_iff.mpr hm)) _
    have hvariant : variantOf variants (Value.string name).node = .ok v := by
      simp only [variantOf, Value.node, text_ofString, bind, Except.bind, hv]
    exact tagged_object hleft (named_members os) (proper_node _) hvalues hvariant htaken
      (ha _ (hothers.map _))

end Json

namespace Event

open Json (Decodes IsLeaf Content leafContent variant_ofMembers)

/-- The ids of an event fit into a word. -/
structure Fits (e : Event) : Prop where
  customer : ∀ c, e.customer? = some c → c ≤ wordMax
  worker : ∀ w, e.worker? = some w → w ≤ wordMax

theorem leaf_fields {e : Event} (h : e.Fits) : ∀ m ∈ e.jsonFields, IsLeaf m := by
  obtain ⟨hcustomer, hworker⟩ := h
  cases e <;> simp_all [jsonFields, customer?, worker?, IsLeaf, Task.toJson]

theorem lookup_named (t : Task) : Task.named.lookup t.jsonName = some t := by
  cases t <;> decide

theorem idField_natural (n : Nat) : idField (.number (.natural n)) = .ok n := rfl

theorem taskField_name (t : Task) : taskField (.string t.jsonName) = .ok t := by
  simp [taskField, Content.oneOf, Json.alternative, lookup_named]

theorem ofCustomer_members {name title : String} {make : Nat → Event} {c : Nat}
    {cs : List (String × Content)} (h : [("customer", Content.number (.natural c))].Perm cs) :
    (ofCustomer name title make).ofMembers cs = .ok (make c) := by
  refine variant_ofMembers (r := (c, ())) (by decide) (Json.Fields.Gives.perm h ⟨?_, trivial⟩)
  exact idField_natural c

theorem ofWorker_members {name title : String} {make : Nat → Event} {w : Nat}
    {cs : List (String × Content)} (h : [("worker", Content.number (.natural w))].Perm cs) :
    (ofWorker name title make).ofMembers cs = .ok (make w) := by
  refine variant_ofMembers (r := (w, ())) (by decide) (Json.Fields.Gives.perm h ⟨?_, trivial⟩)
  exact idField_natural w

theorem ofService_members {name title : String} {make : Nat → Nat → Task → Event} {w c : Nat}
    {t : Task} {cs : List (String × Content)}
    (h : [("worker", Content.number (.natural w)), ("customer", .number (.natural c)),
      ("task", .string t.jsonName)].Perm cs) :
    (ofService name title make).ofMembers cs = .ok (make w c t) := by
  refine variant_ofMembers (r := (w, c, t, ())) (by decide)
    (Json.Fields.Gives.perm h ⟨?_, ?_, ?_, trivial⟩)
  · exact idField_natural w
  · exact idField_natural c
  · exact taskField_name t

/-- The kind of an event is the name of the alternative that makes it of its fields. -/
theorem exists_variant (e : Event) : ∃ v, variants.find? (fun v => v.name == e.kind) = some v ∧
    ∀ cs : List (String × Content), (e.jsonFields.map fun m => (m.1, leafContent m.2)).Perm cs →
      v.ofMembers cs = .ok e := by
  cases e with
  | customerCreated c => exact ⟨_, rfl, fun cs h => ofCustomer_members h⟩
  | customerAdmitted c => exact ⟨_, rfl, fun cs h => ofCustomer_members h⟩
  | customerClaimsWorker c w =>
    refine ⟨_, rfl, fun cs h => variant_ofMembers (r := (c, w, ())) (by decide)
      (Json.Fields.Gives.perm h ⟨?_, ?_, trivial⟩)⟩
    · exact idField_natural c
    · exact idField_natural w
  | workerCreated w => exact ⟨_, rfl, fun cs h => ofWorker_members h⟩
  | workerIdle w => exact ⟨_, rfl, fun cs h => ofWorker_members h⟩
  | workerAnnouncesIntent w c =>
    refine ⟨_, rfl, fun cs h => variant_ofMembers (r := (w, c, ())) (by decide)
      (Json.Fields.Gives.perm h ⟨?_, ?_, trivial⟩)⟩
    · exact idField_natural w
    · exact idField_natural c
  | customerAnnouncesIntent c w t =>
    refine ⟨_, rfl, fun cs h => variant_ofMembers (r := (c, w, t, ())) (by decide)
      (Json.Fields.Gives.perm h ⟨?_, ?_, ?_, trivial⟩)⟩
    · exact idField_natural c
    · exact idField_natural w
    · exact taskField_name t
  | taskStarted w c t => exact ⟨_, rfl, fun cs h => ofService_members h⟩
  | taskFinished w c t => exact ⟨_, rfl, fun cs h => ofService_members h⟩
  | customerFinished c t =>
    refine ⟨_, rfl, fun cs h => variant_ofMembers (r := (c, t, ())) (by decide)
      (Json.Fields.Gives.perm h ⟨?_, ?_, trivial⟩)⟩
    · exact idField_natural c
    · exact taskField_name t
  | customerDeparts c => exact ⟨_, rfl, fun cs h => ofCustomer_members h⟩
  | customerJoined c => exact ⟨_, rfl, fun cs h => ofCustomer_members h⟩

/-- An event is found in what it is written as, wherever its kind stands. -/
theorem decodes_event {e : Event} (h : e.Fits) {left : Nat} (hleft : 1 < left) :
    Decodes (decoderWithin left) e.toJson e := by
  obtain ⟨v, hv, hmembers⟩ := e.exists_variant
  refine Json.decodes_tagged hleft hv ?_ (leaf_fields h) hmembers
  cases e <;> simp [jsonFields]

end Event

/-! ## §5 — The types. -/

open Json (Decodes Value decodes_map decodes_record decodes_word decodes_stamp decodes_list)

theorem Task.decodes (t : Task) : Decodes Task.decoder t.toJson t :=
  Json.decodes_oneOf (Event.lookup_named t)

theorem Phase.decodes (p : Phase) : Decodes Phase.decoder p.toJson p := by
  refine Json.decodes_oneOf ?_
  cases p <;> decide

/-- The id of a customer fits into a word. -/
def Customer.Fits (c : Customer) : Prop := c.id ≤ wordMax

theorem Customer.decodes {c : Customer} (h : c.Fits) : Decodes Customer.decoder c.toJson c := by
  refine decodes_map (a := (c.id, c.task, ())) _ (decodes_record (by decide) ?_)
  exact ⟨_, _, rfl, decodes_word h, _, _, rfl, c.task.decodes, rfl⟩

/-- The id in an assignment fits into a word. -/
def Assignment.Fits (a : Assignment) : Prop := a.customer ≤ wordMax

theorem Assignment.decodes {a : Assignment} (h : a.Fits) :
    Decodes Assignment.decoder a.toJson a := by
  refine decodes_map (a := (a.customer, a.task, ())) _ (decodes_record (by decide) ?_)
  exact ⟨_, _, rfl, decodes_word h, _, _, rfl, a.task.decodes, rfl⟩

/-- The id and the count of a worker fit into words. -/
structure WorkerReport.Fits (r : WorkerReport) : Prop where
  worker : r.worker ≤ wordMax
  served : r.served ≤ wordMax

theorem WorkerReport.decodes {r : WorkerReport} (h : r.Fits) :
    Decodes WorkerReport.decoder r.toJson r := by
  refine decodes_map (a := (r.worker, r.served, ())) _ (decodes_record (by decide) ?_)
  exact ⟨_, _, rfl, decodes_word h.worker, _, _, rfl, decodes_word h.served, rfl⟩

/-- The ids and the ticket of a visit fit into words, its times into stamps. -/
structure Visit.Fits (v : Visit) : Prop where
  customer : v.customer.Fits
  worker : v.worker ≤ wordMax
  ticket : v.ticket ≤ wordMax
  admittedAt : v.admittedAt ≤ stampMax
  departedAt : v.departedAt ≤ stampMax

theorem Visit.decodes {v : Visit} (h : v.Fits) : Decodes Visit.decoder v.toJson v := by
  refine decodes_map (a := (v.customer, v.worker, v.ticket, v.admittedAt, v.departedAt, ())) _
    (decodes_record (by decide) ?_)
  exact ⟨_, _, rfl, Customer.decodes h.customer, _, _, rfl, decodes_word h.worker, _, _, rfl,
    decodes_word h.ticket, _, _, rfl, decodes_stamp h.admittedAt, _, _, rfl,
    decodes_stamp h.departedAt, rfl⟩

/-- The numbers of a configuration fit into words. -/
structure Config.Fits (c : Config) : Prop where
  capacity : c.capacity ≤ wordMax
  workerCount : c.workerCount ≤ wordMax
  customerCount : c.customerCount ≤ wordMax
  minute : c.minute ≤ wordMax
  seed : ∀ s, c.seed = some s → s ≤ wordMax

theorem Config.decodes {c : Config} (h : c.Fits) : Decodes Config.decoder c.toJson c := by
  refine decodes_map (a := (c.capacity, c.workerCount, c.customerCount, c.minute, c.seed, ())) _
    (decodes_record (by decide) ?_)
  refine ⟨_, _, rfl, decodes_word h.capacity, _, _, rfl, decodes_word h.workerCount, _, _, rfl,
    decodes_word h.customerCount, _, _, rfl, decodes_word h.minute, _, _, rfl, ?_, rfl⟩
  cases hseed : c.seed with
  | none => exact Json.decodes_null
  | some s => exact Json.decodes_some (decodes_word (h.seed s hseed))

/-- The time of an event fits into a stamp. -/
structure TimedEvent.Fits (e : TimedEvent) : Prop where
  atMs : e.atMs ≤ stampMax
  event : e.event.Fits

theorem TimedEvent.decodes {e : TimedEvent} (h : e.Fits) :
    Decodes TimedEvent.decoder e.toJson e := by
  refine decodes_map (a := (e.atMs, e.event, ())) _ (decodes_record (by decide) ?_)
  exact ⟨_, _, rfl, decodes_stamp h.atMs, _, _, rfl, Event.decodes_event h.event (by decide), rfl⟩

theorem RunId.decodes {id : RunId} (h : id.value < Nat.pow 2 128) :
    Decodes RunId.decoder id.toJson id := by
  refine Json.decodes_string ?_
  simp [decoder, Json.string, ofText_text h, bind, Except.bind, Except.mapError]

/-- Everything in a report fits. -/
structure Report.Fits (r : Report) : Prop where
  runId : r.runId.value < Nat.pow 2 128
  config : r.config.Fits
  visits : ∀ v ∈ r.visits, v.Fits
  workers : ∀ w ∈ r.workers, w.Fits
  peakScaleHolders : r.peakScaleHolders ≤ wordMax
  scaleWaits : r.scaleWaits ≤ wordMax
  elapsedMs : r.elapsedMs ≤ stampMax

theorem Report.decodes {r : Report} (h : r.Fits) : Decodes Report.decoder r.toJson r := by
  refine decodes_map (a := (r.runId, r.config, r.visits, r.workers, r.peakScaleHolders,
    r.scaleWaits, r.elapsedMs, ())) _ (decodes_record (by decide) ?_)
  exact ⟨_, _, rfl, RunId.decodes h.runId, _, _, rfl, Config.decodes h.config, _, _, rfl,
    decodes_list fun v hv => Visit.decodes (h.visits v hv), _, _, rfl,
    decodes_list fun w hw => WorkerReport.decodes (h.workers w hw), _, _, rfl,
    decodes_word h.peakScaleHolders, _, _, rfl, decodes_word h.scaleWaits, _, _, rfl,
    decodes_stamp h.elapsedMs, rfl⟩

/-- A value is read again from the text that it is written as, and from the text of whatever differs
from that in the order of members. -/
def Json.Restores {A : Type} (d : Json.Decoder A) (toJson : A → Value) (a : A) : Prop :=
  Json.decode d (toJson a).text = .ok a ∧
    ∀ w, (toJson a).Shuffled w → Json.decode d w.text = .ok a

theorem Json.Decodes.restores {A : Type} {d : Json.Decoder A} {toJson : A → Value} {a : A}
    (h : Decodes d (toJson a) a) : Json.Restores d toJson a := by
  have hread : ∀ w, (toJson a).Shuffled w → Json.decode d w.text = .ok a := by
    intro w hw
    rw [Json.decode_of_text w.text_text]
    exact h w hw
  exact ⟨hread _ (toJson a).shuffled_self, hread⟩

/-- **What is written is read again.** Each task, phase, customer, assignment, report of a worker,
visit, configuration, event, timed event and report of a day is read from its text, however large
its numbers are within their width, and so it is with the members of its objects in any order. -/
theorem written_is_read_again :
    (∀ t : Task, Json.Restores Task.decoder Task.toJson t) ∧
    (∀ p : Phase, Json.Restores Phase.decoder Phase.toJson p) ∧
    (∀ c : Customer, c.Fits → Json.Restores Customer.decoder Customer.toJson c) ∧
    (∀ a : Assignment, a.Fits → Json.Restores Assignment.decoder Assignment.toJson a) ∧
    (∀ r : WorkerReport, r.Fits → Json.Restores WorkerReport.decoder WorkerReport.toJson r) ∧
    (∀ v : Visit, v.Fits → Json.Restores Visit.decoder Visit.toJson v) ∧
    (∀ c : Config, c.Fits → Json.Restores Config.decoder Config.toJson c) ∧
    (∀ e : Event, e.Fits → Json.Restores Event.decoder Event.toJson e) ∧
    (∀ e : TimedEvent, e.Fits → Json.Restores TimedEvent.decoder TimedEvent.toJson e) ∧
    (∀ r : Report, r.Fits → Json.Restores Report.decoder Report.toJson r) := by
  refine ⟨?_, ?_, ?_, ?_, ?_, ?_, ?_, ?_, ?_, ?_⟩
  · exact fun t => t.decodes.restores
  · exact fun p => p.decodes.restores
  · exact fun c h => (Customer.decodes h).restores
  · exact fun a h => (Assignment.decodes h).restores
  · exact fun r h => (WorkerReport.decodes h).restores
  · exact fun v h => (Visit.decodes h).restores
  · exact fun c h => (Config.decodes h).restores
  · exact fun e h => (Event.decodes_event h (by decide)).restores
  · exact fun e h => (TimedEvent.decodes h).restores
  · exact fun r h => (Report.decodes h).restores

/-- An event with the largest time, read from a text with everything in another order. -/
theorem written_is_read_again_reordered :
    Json.decode TimedEvent.decoder
      ("\x7b\"event\":\x7b\"worker\":3,\"kind\":\"worker_idle\"\x7d," ++
        "\"at_ms\":340282366920938463463374607431768211455\x7d")
        = .ok ⟨stampMax, .workerIdle 3⟩ := by
  let e : TimedEvent := ⟨stampMax, .workerIdle 3⟩
  have hfits : e.Fits := ⟨Nat.le_refl _, by decide, by decide⟩
  have hinner : Value.Shuffled (Event.toJson (.workerIdle 3))
      (.object [("worker", .number 3), ("kind", .string "worker_idle")]) :=
    .object (Value.shuffledMembers_self _) (.swap _ _ _)
  have horder : e.toJson.Shuffled (.object [("event", .object [("worker", .number 3),
      ("kind", .string "worker_idle")]), ("at_ms", .number stampMax)]) :=
    .object (.cons (.number stampMax) (.cons hinner .nil)) (.swap _ _ _)
  have hread := (written_is_read_again.2.2.2.2.2.2.2.2.1 e hfits).2 _ horder
  have htext : (Value.object [("event", .object [("worker", .number 3),
      ("kind", .string "worker_idle")]), ("at_ms", .number stampMax)]).text =
        "\x7b\"event\":\x7b\"worker\":3,\"kind\":\"worker_idle\"\x7d," ++
          "\"at_ms\":340282366920938463463374607431768211455\x7d" := by
    decide +kernel
  rw [htext] at hread
  exact hread

end Postal
