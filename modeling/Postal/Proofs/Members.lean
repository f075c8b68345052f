import Postal.Json.Tagged
import Postal.Proofs.Rendering
import Mathlib.Data.List.Basic

/-!
# What a record is, whatever the order of its members.

A record is read member by member into a draft. What comes out of it depends on each field by
itself: on the values that stand under its name, of which there may be one at most. So the order of
the members does not matter, and neither do members of other names.

* §1 — well-formed values can be passed over.
* §2 — what members say of the fields of a record (`Gives`), and that their order does not matter.
* §3 — one member more, and from it all members: `gathers_cons`, `gathers_blank`.
* §4 — objects that are read as records, member by member (`record_object`).
* §5 — objects that are taken in whole and carry a tag (`tagged_object`).
-/

namespace Postal.Json

/-! ## §1 — Well-formed values are passed over. -/

theorem errorInMembers_proper {ms : List (Quoted × Node)}
    (h : ∀ m ∈ ms, m.1.ending = .closed ∧ m.2.error? = none) : errorInMembers? ms = none := by
  induction ms with
  | nil => rfl
  | cons m ms ih =>
    obtain ⟨hkey, hvalue⟩ := h m List.mem_cons_self
    rw [errorInMembers?, Quoted.error?, hkey, hvalue,
      ih fun m' hm' => h m' (List.mem_cons_of_mem m hm')]
    rfl

mutual

/-- Nothing is wrong with how a well-formed value is written. -/
theorem Written.proper {n : Node} {cs : List Char} : Written n cs → n.error? = none
  | .word w => by cases w <;> rfl
  | .number figures => by cases figures <;> rfl
  | .string _ => rfl
  | .emptyArray _ => rfl
  | .array items => by
    rw [Node.error?, items.proper]
    rfl
  | .emptyObject _ => rfl
  | .object members => by
    rw [Node.error?, errorInMembers_proper members.proper]
    rfl

/-- Nothing is wrong with the items of an array. -/
theorem WrittenItems.proper {ns : List Node} {cs : List Char} :
    WrittenItems ns cs → errorInItems? ns = none
  | .last _ value _ => by
    rw [errorInItems?, value.proper]
    rfl
  | .more _ value _ items => by
    rw [errorInItems?, value.proper, items.proper]
    rfl

/-- Nothing is wrong with the members of an object. -/
theorem WrittenMembers.proper {ms : List (Quoted × Node)} {cs : List Char} :
    WrittenMembers ms cs → ∀ m ∈ ms, m.1.ending = .closed ∧ m.2.error? = none
  | .last _ _ _ _ value _ => by
    intro m hm
    rw [List.mem_singleton.mp hm]
    exact ⟨rfl, value.proper⟩
  | .more _ _ _ _ value _ members => by
    intro m hm
    obtain rfl | hm := List.mem_cons.mp hm
    · exact ⟨rfl, value.proper⟩
    · exact members.proper m hm

end

/-- A result that is worked on further is a proper one. -/
theorem map_ok_iff {E A B : Type} {x : Except E A} {f : A → B} {b : B} :
    x.map f = .ok b ↔ ∃ a, x = .ok a ∧ f a = b := by
  cases x <;> simp [Except.map]

/-! ## §2 — What members say of the fields. -/

/-- The values under a name. -/
def valuesOf {Src : Type} (name : String) (ps : List (String × Src)) : List Src :=
  (ps.filter fun p => p.1 = name).map (·.2)

@[simp] theorem valuesOf_nil {Src : Type} (name : String) :
    valuesOf name ([] : List (String × Src)) = [] := rfl

@[simp] theorem valuesOf_cons_self {Src : Type} (name : String) (src : Src)
    (ps : List (String × Src)) : valuesOf name ((name, src) :: ps) = src :: valuesOf name ps := by
  simp [valuesOf]

theorem valuesOf_cons_of_ne {Src : Type} {name key : String} (h : key ≠ name) (src : Src)
    (ps : List (String × Src)) : valuesOf name ((key, src) :: ps) = valuesOf name ps := by
  simp [valuesOf, h]

theorem valuesOf_perm {Src : Type} {ps qs : List (String × Src)} (name : String) (h : ps.Perm qs) :
    (valuesOf name ps).Perm (valuesOf name qs) := (h.filter _).map _

namespace Fields

variable {Src : Type}

/-- The names of the fields. -/
def names : {R D : Type} → Fields Src R D → List String
  | _, _, .none => []
  | _, _, .field name _ _ rest => name :: rest.names

/-- What the values under the name of a field say of it: without any, its stand-in counts; more than
one say nothing. -/
def Tells {A : Type} (decode : Src → Except Error A) (fallback : Option A) (a : A) :
    List Src → Prop
  | [] => fallback = some a
  | [src] => decode src = .ok a
  | _ => False

/-- The record that members give, whatever their order. -/
def Gives : {R D : Type} → Fields Src R D → List (String × Src) → R → Prop
  | _, _, .none, _, _ => True
  | _, _, .field name decode fallback rest, ps, (a, r) =>
    Tells decode fallback a (valuesOf name ps) ∧ rest.Gives ps r

theorem Tells.perm {A : Type} {decode : Src → Except Error A} {fallback : Option A} {a : A}
    {vs ws : List Src} (h : vs.Perm ws) (htells : Tells decode fallback a vs) :
    Tells decode fallback a ws := by
  match vs, htells with
  | [], htells =>
    rw [List.nil_perm.mp h]
    exact htells
  | [src], htells =>
    rw [← List.singleton_perm.mp h]
    exact htells

/-- The order of members does not matter. -/
theorem Gives.perm {R D : Type} {fs : Fields Src R D} {ps qs : List (String × Src)} {r : R}
    (h : ps.Perm qs) (hgives : fs.Gives ps r) : fs.Gives qs r := by
  induction fs with
  | none => trivial
  | field name decode fallback rest ih =>
    obtain ⟨htells, hrest⟩ := hgives
    exact ⟨htells.perm (valuesOf_perm name h), ih hrest⟩

/-! ## §3 — One member more. -/

/-- What becomes of a field of a draft with the values under its name. -/
def Fills {A : Type} (decode : Src → Except Error A) (found found' : Option A) : List Src → Prop
  | [] => found' = found
  | [src] => found = Option.none ∧ ∃ a, decode src = .ok a ∧ found' = some a
  | _ => False

/-- What becomes of a draft with some members. -/
def Gathers : {R D : Type} → Fields Src R D → List (String × Src) → D → D → Prop
  | _, _, .none, _, _, _ => True
  | _, _, .field name decode _ rest, ps, (found, draft), (found', draft') =>
    Fills decode found found' (valuesOf name ps) ∧ rest.Gathers ps draft draft'

/-- What one member makes of a draft, if it is accepted. -/
def take? {R D : Type} (fs : Fields Src R D) (name : String) (src : Src) (draft : D) : Option D :=
  match fs.accept? name draft with
  | Option.none => some draft
  | some (.error _) => Option.none
  | some (.ok go) => (go src).toOption

theorem gathers_nil {R D : Type} (fs : Fields Src R D) {draft draft' : D} :
    fs.Gathers [] draft draft' ↔ draft' = draft := by
  induction fs with
  | none => exact ⟨fun _ => rfl, fun _ => trivial⟩
  | field name decode fallback rest ih =>
    obtain ⟨found, draft⟩ := draft
    obtain ⟨found', draft'⟩ := draft'
    rw [Gathers, ih, Prod.mk.injEq]
    rfl

theorem gathers_other {R D : Type} {fs : Fields Src R D} {key : String} (hkey : key ∉ fs.names)
    {src : Src} {ps : List (String × Src)} {draft draft' : D} :
    fs.Gathers ((key, src) :: ps) draft draft' ↔ fs.Gathers ps draft draft' := by
  induction fs with
  | none => exact Iff.rfl
  | field name decode fallback rest ih =>
    obtain ⟨hne, hrest⟩ := List.ne_and_not_mem_of_not_mem_cons hkey
    rw [Gathers, Gathers, valuesOf_cons_of_ne hne, ih hrest]

/-- A field whose name is met takes its first value, and none after that. -/
theorem fills_cons {A : Type} {decode : Src → Except Error A} {found found' : Option A} {src : Src}
    {vs : List Src} :
    Fills decode found found' (src :: vs) ↔
      found = Option.none ∧ ∃ a, decode src = .ok a ∧ Fills decode (some a) found' vs := by
  cases vs with
  | nil => exact Iff.rfl
  | cons v vs =>
    refine ⟨False.elim, fun ⟨_, a, _, h⟩ => ?_⟩
    cases vs with
    | nil => exact absurd h.1 (by simp)
    | cons _ _ => exact h

theorem take?_field_self {A R D : Type} {name : String} {decode : Src → Except Error A}
    {fallback : Option A} {rest : Fields Src R D} {src : Src} {found : Option A} {draft : D} :
    (Fields.field name decode fallback rest).take? name src (found, draft) =
      if found = Option.none then (decode src).toOption.map fun a => (some a, draft)
      else Option.none := by
  cases found with
  | none =>
    simp only [take?, accept?, if_true]
    cases decode src <;> rfl
  | some a => simp [take?, accept?]

theorem take?_field_of_ne {A R D : Type} {name key : String} {decode : Src → Except Error A}
    {fallback : Option A} {rest : Fields Src R D} (h : key ≠ name) {src : Src} {found : Option A}
    {draft : D} :
    (Fields.field name decode fallback rest).take? key src (found, draft) =
      (rest.take? key src draft).map fun draft => (found, draft) := by
  simp only [take?, accept?, if_neg (Ne.symm h)]
  cases rest.accept? key draft with
  | none => rfl
  | some r =>
    cases r with
    | error e => rfl
    | ok go =>
      simp only [Option.map_some, Except.map]
      cases go src <;> rfl

/-- **One member more**: the draft that it makes is what the others go on from. -/
theorem gathers_cons {R D : Type} {fs : Fields Src R D} (hnames : fs.names.Nodup) {key : String}
    {src : Src} {ps : List (String × Src)} {draft draft' : D} :
    fs.Gathers ((key, src) :: ps) draft draft' ↔
      ∃ between, fs.take? key src draft = some between ∧ fs.Gathers ps between draft' := by
  induction fs with
  | none => simp [Gathers, take?, accept?]
  | @field A R D name decode fallback rest ih =>
    obtain ⟨hname, hrest⟩ := List.nodup_cons.mp hnames
    obtain ⟨found, draft⟩ := draft
    obtain ⟨found', draft'⟩ := draft'
    by_cases hkey : key = name
    · subst hkey
      rw [Gathers, valuesOf_cons_self, fills_cons, gathers_other hname, take?_field_self]
      constructor
      · rintro ⟨⟨rfl, a, ha, hfills⟩, hgathers⟩
        exact ⟨(some a, draft), by simp [ha, Except.toOption], hfills, hgathers⟩
      · rintro ⟨⟨between, draft₁⟩, htake, hfills, hgathers⟩
        cases found with
        | some a => simp at htake
        | none =>
          cases hsrc : decode src with
          | error e => simp [hsrc, Except.toOption] at htake
          | ok a =>
            simp only [hsrc, Except.toOption, if_true, Option.map_some, Option.some.injEq,
              Prod.mk.injEq] at htake
            obtain ⟨rfl, rfl⟩ := htake
            exact ⟨⟨rfl, a, rfl, hfills⟩, hgathers⟩
    · rw [Gathers, valuesOf_cons_of_ne hkey, ih hrest, take?_field_of_ne hkey]
      constructor
      · rintro ⟨hfills, between, htake, hgathers⟩
        exact ⟨(found, between), by rw [htake]; rfl, hfills, hgathers⟩
      · rintro ⟨⟨found₁, between⟩, htake, hfills, hgathers⟩
        obtain ⟨draft₂, hrest', heq⟩ := Option.map_eq_some_iff.mp htake
        obtain ⟨rfl, rfl⟩ := Prod.mk.inj heq
        exact ⟨hfills, draft₂, hrest', hgathers⟩

/-- From nothing on, members make a draft that is complete exactly as the record they give. -/
theorem gathers_blank {R D : Type} (fs : Fields Src R D) {ps : List (String × Src)} {r : R} :
    (∃ draft, fs.Gathers ps fs.blank draft ∧ fs.complete draft = .ok r) ↔ fs.Gives ps r := by
  induction fs with
  | none => exact ⟨fun _ => trivial, fun _ => ⟨(), trivial, rfl⟩⟩
  | @field A R D name decode fallback rest ih =>
    obtain ⟨a, r⟩ := r
    have hcomplete : ∀ (found : Option A) (draft : D),
        (Fields.field name decode fallback rest).complete (found, draft) = .ok (a, r) ↔
          found.or fallback = some a ∧ rest.complete draft = .ok r := by
      intro found draft
      rw [complete]
      cases found.or fallback with
      | none => simp [bind, Except.bind]
      | some b => cases rest.complete draft <;> simp [bind, Except.bind]
    have htells : Tells decode fallback a (valuesOf name ps) ↔
        ∃ found, Fills decode Option.none found (valuesOf name ps) ∧
          found.or fallback = some a := by
      match valuesOf name ps with
      | [] => simp [Tells, Fills]
      | [src] => cases h : decode src <;> simp [Tells, Fills, h]
      | _ :: _ :: _ => simp [Tells, Fills]
    rw [Gives, htells, ← ih]
    constructor
    · rintro ⟨⟨found, draft⟩, ⟨hfills, hgathers⟩, hdone⟩
      obtain ⟨hor, hrest⟩ := (hcomplete found draft).mp hdone
      exact ⟨⟨found, hfills, hor⟩, draft, hgathers, hrest⟩
    · rintro ⟨⟨found, hfills, hor⟩, draft, hgathers, hrest⟩
      exact ⟨(found, draft), ⟨hfills, hgathers⟩, (hcomplete found draft).mpr ⟨hor, hrest⟩⟩

end Fields

/-! ## §4 — Records in objects. -/

/-- Every surrogate in a string is one half of a pair. -/
inductive Paired : List Piece → Prop
  | nil : Paired []
  | plain {c : Char} {ps : List Piece} (rest : Paired ps) : Paired (.plain c :: ps)
  | escaped {c : Char} {ps : List Piece} (rest : Paired ps) : Paired (.escaped c :: ps)
  | unit {n : Nat} {ps : List Piece} (low : isLowSurrogate n = false)
      (high : isHighSurrogate n = false) (rest : Paired ps) : Paired (.unit n :: ps)
  | pair {high low : Nat} {ps : List Piece} (isHigh : isHighSurrogate high = true)
      (isLow : isLowSurrogate low = true) (rest : Paired ps) :
      Paired (.unit high :: .unit low :: ps)

theorem not_low_of_high {n : Nat} (h : isHighSurrogate n = true) : isLowSurrogate n = false := by
  simp only [isHighSurrogate, isLowSurrogate, Bool.and_eq_true, decide_eq_true_eq,
    Bool.and_eq_false_iff, decide_eq_false_iff_not] at h ⊢
  omega

/-- A proper string without stray surrogates means a text. -/
theorem Paired.readPieces {ps : List Piece} (h : Paired ps) :
    ∃ cs, Json.readPieces .closed none ps = .ok cs := by
  induction h with
  | nil => exact ⟨[], rfl⟩
  | @plain c _ _ ih =>
    obtain ⟨cs, hcs⟩ := ih
    exact ⟨c :: cs, by rw [Json.readPieces, hcs]; rfl⟩
  | @escaped c _ _ ih =>
    obtain ⟨cs, hcs⟩ := ih
    exact ⟨c :: cs, by rw [Json.readPieces, hcs]; rfl⟩
  | @unit n _ low high _ ih =>
    obtain ⟨cs, hcs⟩ := ih
    exact ⟨Char.ofNat n :: cs, by simp [Json.readPieces, low, high, hcs, Except.map]⟩
  | @pair high low _ isHigh isLow _ ih =>
    obtain ⟨cs, hcs⟩ := ih
    refine ⟨pairChar high low :: cs, ?_⟩
    simp [Json.readPieces, isHigh, not_low_of_high isHigh, isLow, hcs, Except.map]

/-- A string that was written has no surrogates at all. -/
theorem paired_ofString (s : String) : Paired (Quoted.ofString s).pieces := by
  change Paired (s.toList.map Piece.ofChar)
  induction s.toList with
  | nil => exact .nil
  | cons c cs ih =>
    rw [List.map_cons, Piece.ofChar]
    split
    · exact .escaped ih
    · split
      · rename_i _ hcontrol
        obtain ⟨hlow, hhigh⟩ := no_surrogate_of_control hcontrol
        exact .unit hlow hhigh ih
      · exact .plain ih

/-- A key as a name. -/
def Quoted.name (key : Quoted) : String := (key.text.toOption).getD ""

/-- The members of an object under their names. -/
def named (ms : List (Quoted × Node)) : List (String × Node) := ms.map fun m => (m.1.name, m.2)

/-- Members whose keys are proper texts, and their names. -/
def Named (ms : List (Quoted × Node)) (ps : List (String × Node)) : Prop :=
  List.Forall₂ (fun m p => m.1.text = .ok p.1 ∧ m.2 = p.2) ms ps

theorem named_of_paired {ms : List (Quoted × Node)}
    (h : ∀ m ∈ ms, m.1.ending = .closed ∧ Paired m.1.pieces) : Named ms (named ms) := by
  induction ms with
  | nil => exact .nil
  | cons m ms ih =>
    obtain ⟨hclosed, hpaired⟩ := h m List.mem_cons_self
    obtain ⟨cs, hcs⟩ := hpaired.readPieces
    have htext : m.1.text = .ok (String.ofList cs) := by
      rw [Quoted.text, hclosed, hcs]
      rfl
    refine .cons ⟨?_, rfl⟩ (ih fun m' hm' => h m' (List.mem_cons_of_mem m hm'))
    change m.1.text = .ok ((m.1.text.toOption).getD "")
    rw [htext]
    rfl

/-- The members of a well-formed object are proper. -/
theorem Text.members {ms : List (Quoted × Node)} {cs : List Char}
    (h : Text (.object ms .closed) cs) :
    ∀ m ∈ ms, m.1.ending = .closed ∧ m.2.error? = none := by
  cases h with
  | mk _ value _ =>
    cases value with
    | emptyObject => exact fun m hm => nomatch hm
    | object members => exact members.proper

theorem colon_of_proper {n : Node} (h : n.error? = none) : colon n = .ok () := by
  cases n <;> first | rfl | simp [Node.error?] at h

theorem ignored_of_proper {n : Node} (h : n.error? = none) : ignored n = .ok () := by
  rw [ignored, h]

/-- Members are read into a draft as what they make of it. -/
theorem readMembers_ok {R D : Type} {fs : Fields Node R D} (hnames : fs.names.Nodup)
    {ms : List (Quoted × Node)} {ps : List (String × Node)} (hms : Named ms ps)
    (hproper : ∀ m ∈ ms, m.2.error? = none) {draft draft' : D} :
    readMembers fs ms draft = .ok draft' ↔ fs.Gathers ps draft draft' := by
  induction hms generalizing draft with
  | nil =>
    rw [fs.gathers_nil, readMembers, Except.ok.injEq]
    exact eq_comm
  | @cons m p ms ps hm _ ih =>
    obtain ⟨key, value⟩ := m
    obtain ⟨name, src⟩ := p
    obtain ⟨hkey, rfl⟩ : key.text = .ok name ∧ value = src := hm
    have hvalue : value.error? = none := hproper _ List.mem_cons_self
    have ih := fun draft => @ih (fun m hm => hproper m (List.mem_cons_of_mem _ hm)) draft
    rw [Fields.gathers_cons hnames, readMembers, hkey]
    simp only [bind, Except.bind, colon_of_proper hvalue, ignored_of_proper hvalue, Fields.take?]
    cases fs.accept? name draft with
    | none => simp [ih]
    | some r =>
      cases r with
      | error e => simp
      | ok go => cases hgo : go value <;> simp [Except.mapError, Except.toOption, hgo, ih]

/-- **An object is read as the record that its members give**, in whatever order they stand. -/
theorem record_object {R D : Type} {kind : String} {fs : Fields Node R D}
    (hnames : fs.names.Nodup) {ms : List (Quoted × Node)} {ps : List (String × Node)}
    (hms : Named ms ps) (hproper : ∀ m ∈ ms, m.2.error? = none) {r : R} :
    record kind fs (.object ms .closed) = .ok r ↔ fs.Gives ps r := by
  rw [← fs.gathers_blank, record]
  cases hread : readMembers fs ms fs.blank with
  | error e =>
    refine ⟨fun h => by simp [bind, Except.bind] at h, fun ⟨draft, hgathers, _⟩ => ?_⟩
    rw [(readMembers_ok hnames hms hproper).mpr hgathers] at hread
    cases hread
  | ok draft =>
    have hgathers := (readMembers_ok hnames hms hproper).mp hread
    refine ⟨fun h => ⟨draft, hgathers, h⟩, fun ⟨draft', hgathers', hdone⟩ => ?_⟩
    have hsame := (readMembers_ok hnames hms hproper).mpr hgathers'
    rw [hread, Except.ok.injEq] at hsame
    rw [hsame]
    exact hdone

/-! ## §5 — Objects that carry a tag. -/

/-- Members that were taken in are read into a draft as what they make of it. -/
theorem readContentMembers_ok {R D : Type} {fs : Fields Content R D} (hnames : fs.names.Nodup)
    {cs : List (String × Content)} {draft draft' : D} :
    readContentMembers fs cs draft = .ok draft' ↔ fs.Gathers cs draft draft' := by
  induction cs generalizing draft with
  | nil =>
    rw [fs.gathers_nil, readContentMembers, Except.ok.injEq]
    exact eq_comm
  | cons c cs ih =>
    obtain ⟨name, value⟩ := c
    rw [Fields.gathers_cons hnames, readContentMembers]
    simp only [Fields.take?]
    cases fs.accept? name draft with
    | none => simp [ih]
    | some r =>
      cases r with
      | error e => simp
      | ok go => cases hgo : go value <;> simp [bind, Except.bind, Except.toOption, hgo, ih]

/-- An alternative makes its value of the record that the members give. -/
theorem variant_ofMembers {A R D : Type} {name title : String} {fs : Fields Content R D}
    {make : R → A} (hnames : fs.names.Nodup) {cs : List (String × Content)} {r : R}
    (h : fs.Gives cs r) : (variant name title fs make).ofMembers cs = .ok (make r) := by
  obtain ⟨draft, hgathers, hdone⟩ := fs.gathers_blank.mpr h
  simp only [variant, (readContentMembers_ok hnames).mpr hgathers, bind, Except.bind, hdone]
  rfl

/-- A member that is not the tag, and what is taken in of it. -/
def TakenIn (left : Nat) (p : String × Node) (c : String × Content) : Prop :=
  c.1 = p.1 ∧ p.2.content left = .ok c.2

/-- The members beside the tag. -/
def beside (tag : String) (ps : List (String × Node)) : List (String × Node) :=
  ps.filter fun p => p.1 ≠ tag

theorem beside_cons_self (tag : String) (value : Node) (ps : List (String × Node)) :
    beside tag ((tag, value) :: ps) = beside tag ps :=
  List.filter_cons_of_neg (by simp)

theorem beside_cons_of_ne {tag name : String} (hname : name ≠ tag) (value : Node)
    (ps : List (String × Node)) :
    beside tag ((name, value) :: ps) = (name, value) :: beside tag ps :=
  List.filter_cons_of_pos (by simp [hname])

/-- Behind the tag, or without one, members are taken in. -/
theorem readTagged_beside {A : Type} {tag : String} {variants : List (Variant A)} {left : Nat}
    {ms : List (Quoted × Node)} {ps : List (String × Node)} {cs : List (String × Content)}
    {found : Option (Variant A)} (hms : Named ms ps) (htag : valuesOf tag ps = [])
    (hcs : List.Forall₂ (TakenIn left) (beside tag ps) cs) :
    readTagged tag variants left ms found = .ok (found, cs) := by
  induction hms generalizing cs with
  | nil =>
    cases hcs
    rfl
  | @cons m p ms ps hm _ ih =>
    obtain ⟨key, value⟩ := m
    obtain ⟨name, src⟩ := p
    obtain ⟨hkey, rfl⟩ : key.text = .ok name ∧ value = src := hm
    have hname : name ≠ tag := by
      rintro rfl
      simp at htag
    rw [valuesOf_cons_of_ne hname] at htag
    rw [beside_cons_of_ne hname] at hcs
    cases hcs with
    | cons htaken hrest =>
      obtain ⟨rfl, hcontent⟩ := htaken
      simp only [readTagged, hkey, bind, Except.bind, if_neg hname, hcontent, ih htag hrest]

/-- The tag is found wherever it stands. -/
theorem readTagged_tag {A : Type} {tag : String} {variants : List (Variant A)} {left : Nat}
    {ms : List (Quoted × Node)} {ps : List (String × Node)} {cs : List (String × Content)}
    {t : Node} {v : Variant A} (hms : Named ms ps) (hproper : t.error? = none)
    (htag : valuesOf tag ps = [t]) (hv : variantOf variants t = .ok v)
    (hcs : List.Forall₂ (TakenIn left) (beside tag ps) cs) :
    readTagged tag variants left ms none = .ok (some v, cs) := by
  induction hms generalizing cs with
  | nil => cases htag
  | @cons m p ms ps hm hms ih =>
    obtain ⟨key, value⟩ := m
    obtain ⟨name, src⟩ := p
    obtain ⟨hkey, rfl⟩ : key.text = .ok name ∧ value = src := hm
    by_cases hname : name = tag
    · subst hname
      rw [valuesOf_cons_self, List.cons.injEq] at htag
      obtain ⟨rfl, htag⟩ := htag
      rw [beside_cons_self] at hcs
      simp only [readTagged, hkey, bind, Except.bind, if_true, Option.isSome_none,
        Bool.false_eq_true, if_false, colon_of_proper hproper, hv]
      exact readTagged_beside hms htag hcs
    · rw [valuesOf_cons_of_ne hname] at htag
      rw [beside_cons_of_ne hname] at hcs
      cases hcs with
      | cons htaken hrest =>
        obtain ⟨rfl, hcontent⟩ := htaken
        simp only [readTagged, hkey, bind, Except.bind, if_neg hname, hcontent, ih htag hrest]

/-- **An object with a tag is read as what its tag makes of the other members**, wherever among
them the tag stands. -/
theorem tagged_object {A : Type} {kind tag : String} {variants : List (Variant A)} {left : Nat}
    {ms : List (Quoted × Node)} {ps : List (String × Node)} {cs : List (String × Content)}
    {t : Node} {v : Variant A} {a : A} (hleft : 1 < left) (hms : Named ms ps)
    (hproper : t.error? = none) (htag : valuesOf tag ps = [t]) (hv : variantOf variants t = .ok v)
    (hcs : List.Forall₂ (TakenIn (left - 1)) (beside tag ps) cs) (ha : v.ofMembers cs = .ok a) :
    tagged kind tag variants left (.object ms .closed) = .ok a := by
  have hdescend : descend left = .ok (left - 1) := by
    rw [descend, if_neg (by omega)]
  simp only [tagged, hdescend, bind, Except.bind, readTagged_tag hms hproper htag hv hcs,
    ObjectEnd.error?, failIf, ha]

end Postal.Json
