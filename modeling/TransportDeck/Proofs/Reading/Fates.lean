import TransportDeck.Proofs.CrossRefs.ReportsByCode
import TransportDeck.Proofs.Reading.KeepFirst
import TransportDeck.Proofs.Reading.Reports

/-!
What becomes of the cards of a block. Each card is kept as a record, or it repeats one that an
earlier card has defined, or it cannot be read; and each card that is not kept is reported.
-/

namespace TransportDeck

inductive Fate (α : Type)
  | kept (a : α)
  | repeated (key : RecordKey) (first : Span)
  | unreadable (issue : CardIssue)

namespace Fate

variable {α : Type}

def record? : Fate α → Option α
  | kept a => some a
  | _ => none

def repeat? (span : Span) : Fate α → Option Diagnostic
  | repeated key first => some ((Finding.duplicate key.1 key.2 first).report (some span))
  | _ => none

def report? (span : Span) : Fate α → Option Diagnostic
  | unreadable issue => some (issue.report span)
  | fate => fate.repeat? span

end Fate

abbrev Fates (α : Type) := List (LogicalCard × Fate α)

namespace Fates

variable {α : Type}

def records (fates : Fates α) : List α :=
  fates.filterMap fun e => e.2.record?

def repeats (fates : Fates α) : List Diagnostic :=
  fates.filterMap fun e => e.2.repeat? e.1.span

end Fates

/-- The fates account for every card of a block and for every record of the deck. What is done to a
record once its block has been read is `finish`. -/
structure Accounts {α : Type} (rules : BlockRules α) (finish : α → α) (spanOf : α → Span)
    (cards : List LogicalCard) (records : List α) (reports : List Diagnostic) (fates : Fates α) :
    Prop where
  cards_eq : fates.map (·.1) = cards
  records_eq : fates.records.map finish = records
  kept : ∀ card record, (card, .kept record) ∈ fates →
    (∃ a issues, rules.read card.text.toList = .ok (a, issues) ∧
      record = rules.place card.span a ∧ rules.key? record = rules.key? a) ∧
    rules.key? (finish record) = rules.key? record ∧ spanOf (finish record) = card.span
  dropped : ∀ card fate, (card, fate) ∈ fates → fate.record? = none →
    ∃ r ∈ reports, r.severity = .error ∧ r.span = some card.span
  /-- A card that can be read is dropped exactly if an earlier one has its key. -/
  dropped_iff : ∀ earlier card fate later, fates = earlier ++ (card, fate) :: later →
    ∀ a issues, rules.read card.text.toList = .ok (a, issues) →
      (fate.record? = none ↔ ∃ key original record, rules.key? a = some key ∧
        (original, .kept record) ∈ earlier ∧ rules.key? record = some key)
  repeated : ∀ earlier card key first later,
    fates = earlier ++ (card, .repeated key first) :: later →
      (∃ a issues, rules.read card.text.toList = .ok (a, issues) ∧ rules.key? a = some key) ∧
      ∃ original record, (original, .kept record) ∈ earlier ∧ rules.key? record = some key ∧
        original.span = first
  unreadable : ∀ card issue, (card, .unreadable issue) ∈ fates →
    rules.read card.text.toList = .error issue

namespace BlockRules

variable {α : Type} {rules : BlockRules α} {seen : List (RecordKey × Span)} {a : α}
  {card : LogicalCard} {x : Fate α}

def fate (rules : BlockRules α) (seen : List (RecordKey × Span)) (card : LogicalCard) : Fate α :=
  match rules.read card.text.toList with
  | .error issue => .unreadable issue
  | .ok (a, _) =>
    match rules.earlier? seen a with
    | some (key, first) => .repeated key first
    | none => .kept (rules.place card.span a)

def definition? (rules : BlockRules α) (e : LogicalCard × Fate α) : Option (RecordKey × Span) :=
  (e.2.record?.bind rules.key?).map fun key => (key, e.1.span)

def definitions (rules : BlockRules α) (fates : Fates α) : List (RecordKey × Span) :=
  (fates.filterMap rules.definition?).reverse

def fates (rules : BlockRules α) (seen : List (RecordKey × Span)) : List LogicalCard → Fates α
  | [] => []
  | card :: rest =>
    let fate := rules.fate seen card
    (card, fate) :: fates rules (rules.definitions [(card, fate)] ++ seen) rest

theorem definitions_cons (e : LogicalCard × Fate α) (rest : Fates α) :
    rules.definitions (e :: rest) = rules.definitions rest ++ rules.definitions [e] := by
  simp only [definitions, ← List.reverse_append, ← List.filterMap_append, List.singleton_append]

theorem definitions_kept (card : LogicalCard) (record : α) :
    rules.definitions [(card, .kept record)] =
      (rules.key? record).toList.map fun key => (key, card.span) := by
  simp only [definitions, List.filterMap_cons, List.filterMap_nil, definition?, Fate.record?,
    Option.bind_some]
  cases rules.key? record <;> rfl

theorem definitions_repeated (card : LogicalCard) (key : RecordKey) (first : Span) :
    rules.definitions [(card, .repeated key first)] = [] := rfl

theorem mem_definitions {fates : Fates α} {key : RecordKey} {first : Span} :
    (key, first) ∈ rules.definitions fates ↔ ∃ original record,
      (original, .kept record) ∈ fates ∧ rules.key? record = some key ∧ original.span = first := by
  rw [definitions, List.mem_reverse, List.mem_filterMap]
  constructor
  · rintro ⟨⟨original, outcome⟩, hmem, hdefinition⟩
    cases outcome with
    | kept record =>
      obtain ⟨k, hkey, hpair⟩ := Option.map_eq_some_iff.mp hdefinition
      obtain ⟨rfl, rfl⟩ := Prod.mk.inj hpair
      exact ⟨original, record, hmem, hkey, rfl⟩
    | repeated => cases hdefinition
    | unreadable => cases hdefinition
  · rintro ⟨original, record, hmem, hkey, rfl⟩
    exact ⟨(original, .kept record), hmem, Option.map_eq_some_iff.mpr ⟨key, hkey, rfl⟩⟩

theorem exists_kept_of_lookup {fates : Fates α} {key : RecordKey} {first : Span}
    (h : (rules.definitions fates).lookup key = some first) :
    ∃ original record, (original, .kept record) ∈ fates ∧ rules.key? record = some key ∧
      original.span = first := by
  obtain ⟨_, _, hentries, _⟩ := List.lookup_eq_some_iff.mp h
  exact mem_definitions.mp (hentries ▸ List.mem_append_right _ List.mem_cons_self)

theorem earlier?_eq_some_iff {key : RecordKey} {first : Span} :
    rules.earlier? seen a = some (key, first) ↔
      rules.key? a = some key ∧ seen.lookup key = some first := by
  simp only [earlier?, Option.bind_eq_some_iff, Option.map_eq_some_iff, Prod.mk.injEq]
  constructor
  · rintro ⟨k, hkey, f, hseen, rfl, rfl⟩
    exact ⟨hkey, hseen⟩
  · rintro ⟨hkey, hseen⟩
    exact ⟨key, hkey, first, hseen, rfl, rfl⟩

/-- A record has been defined before exactly if an earlier card is kept under its key. -/
theorem exists_earlier_iff {earlier : Fates α} :
    (∃ known, rules.earlier? (rules.definitions earlier) a = some known) ↔
      ∃ key original record, rules.key? a = some key ∧ (original, .kept record) ∈ earlier ∧
        rules.key? record = some key := by
  constructor
  · rintro ⟨⟨key, first⟩, hknown⟩
    obtain ⟨hkey, hlookup⟩ := earlier?_eq_some_iff.mp hknown
    obtain ⟨original, record, horiginal, hrecord, _⟩ := exists_kept_of_lookup hlookup
    exact ⟨key, original, record, hkey, horiginal, hrecord⟩
  · rintro ⟨key, original, record, hkey, horiginal, hrecord⟩
    have hdefined : (key, original.span) ∈ rules.definitions earlier :=
      mem_definitions.mpr ⟨original, record, horiginal, hrecord, rfl⟩
    have hkeys : key ∈ (rules.definitions earlier).map (·.1) := List.mem_map_of_mem hdefined
    obtain ⟨first, hlookup⟩ := exists_lookup_iff.mpr hkeys
    exact ⟨(key, first), earlier?_eq_some_iff.mpr ⟨hkey, hlookup⟩⟩

/-- What the fate of a card says about the card, after the definitions `seen`. -/
inductive FateOf (rules : BlockRules α) (seen : List (RecordKey × Span)) (card : LogicalCard) :
    Fate α → Prop
  | unreadable {issue : CardIssue} (hread : rules.read card.text.toList = .error issue) :
    FateOf rules seen card (.unreadable issue)
  | repeated {a : α} {issues : List CardIssue} {key : RecordKey} {first : Span}
    (hread : rules.read card.text.toList = .ok (a, issues))
    (hearlier : rules.earlier? seen a = some (key, first)) :
    FateOf rules seen card (.repeated key first)
  | kept {a : α} {issues : List CardIssue} (hread : rules.read card.text.toList = .ok (a, issues))
    (hnew : rules.earlier? seen a = none) :
    FateOf rules seen card (.kept (rules.place card.span a))

theorem fateOf_fate (rules : BlockRules α) (seen : List (RecordKey × Span)) (card : LogicalCard) :
    FateOf rules seen card (rules.fate seen card) := by
  unfold fate
  cases hread : rules.read card.text.toList with
  | error issue => exact .unreadable hread
  | ok result =>
    obtain ⟨a, issues⟩ := result
    dsimp only
    cases hearlier : rules.earlier? seen a with
    | some known => exact .repeated hread hearlier
    | none => exact .kept hread hearlier

theorem map_fst_fates (cards : List LogicalCard) :
    (rules.fates seen cards).map (·.1) = cards := by
  induction cards generalizing seen with
  | nil => rfl
  | cons card rest ih => rw [fates, List.map_cons, ih]

/-- The fate of a card is decided by what the cards before it define. -/
theorem fateOf_of_split {cards : List LogicalCard} {earlier later : Fates α}
    (h : rules.fates seen cards = earlier ++ (card, x) :: later) :
    FateOf rules (rules.definitions earlier ++ seen) card x := by
  induction earlier generalizing seen cards with
  | nil =>
    cases cards with
    | nil => cases h
    | cons first rest =>
      obtain ⟨hhead, _⟩ := List.cons.inj h
      obtain ⟨rfl, rfl⟩ := Prod.mk.inj hhead
      exact rules.fateOf_fate seen first
  | cons e earlier ih =>
    cases cards with
    | nil => cases h
    | cons first rest =>
      obtain ⟨rfl, hrest⟩ := List.cons.inj h
      rw [definitions_cons (first, _) earlier, List.append_assoc]
      exact ih hrest

theorem fateOf_of_mem {cards : List LogicalCard} (h : (card, x) ∈ rules.fates seen cards) :
    ∃ known, FateOf rules known card x := by
  obtain ⟨earlier, later, hsplit⟩ := List.append_of_mem h
  exact ⟨_, fateOf_of_split hsplit⟩

/-- Placing a card leaves its key, and remarks and audits never tell of a repeated card. -/
structure Lawful (rules : BlockRules α) : Prop where
  key_place : ∀ span a, rules.key? (rules.place span a) = rules.key? a
  code_remarks : ∀ before a, ∀ f ∈ rules.remarks before a, f.code ≠ .duplicateEntityNumber
  code_audit : ∀ a, ∀ f ∈ rules.audit a, f.code ≠ .duplicateEntityNumber

def found (rules : BlockRules α) (before : List α) (span : Span) (a : α) (issues : List CardIssue) :
    List Diagnostic :=
  issues.map (·.report span) ++ (rules.remarks before a).map (·.report (some span))

theorem code_found (hlawful : rules.Lawful) {before : List α} {span : Span}
    {issues : List CardIssue} :
    ∀ r ∈ rules.found before span a issues, r.code ≠ .duplicateEntityNumber := by
  intro r hr
  rcases List.mem_append.mp hr with hr | hr
  · obtain ⟨issue, _, rfl⟩ := List.mem_map.mp hr
    exact issue.fault.code_ne_duplicate
  · obtain ⟨f, hf, rfl⟩ := List.mem_map.mp hr
    exact hlawful.code_remarks before a f hf

def audits (rules : BlockRules α) (span : Span) (a : α) : List Diagnostic :=
  (rules.audit a).map (·.report (some span))

theorem code_audits (hlawful : rules.Lawful) {span : Span} :
    ∀ r ∈ rules.audits span a, r.code ≠ .duplicateEntityNumber := by
  intro r hr
  obtain ⟨f, hf, rfl⟩ := List.mem_map.mp hr
  exact hlawful.code_audit a f hf

/-- One card: its record is kept or its report given, among others that tell of no repeated card, and
the rest goes on from what the card defines. -/
theorem keepFirst_cons (hlawful : rules.Lawful) (before : List α) (seen : List (RecordKey × Span))
    (card : LogicalCard) (rest : List LogicalCard) :
    ∃ before' found audits kept reports,
      rules.keepFirst before' (rules.definitions [(card, rules.fate seen card)] ++ seen)
          (rules.results rest) = (kept, reports) ∧
      rules.keepFirst before seen (rules.results (card :: rest)) =
        ((rules.fate seen card).record?.toList ++ kept,
          found ++ ((rules.fate seen card).report? card.span).toList ++ audits ++ reports) ∧
      ∀ r ∈ found ++ audits, r.code ≠ .duplicateEntityNumber := by
  have hresults : rules.results (card :: rest) =
      (card.span, rules.read card.text.toList) :: rules.results rest := rfl
  generalize hfate : rules.fate seen card = x
  have hcard := rules.fateOf_fate seen card
  rw [hfate] at hcard
  rw [hresults]
  cases hcard with
  | unreadable hread =>
    rw [hread]
    exact ⟨before, [], [], _, _, rfl, rfl, fun r hr => absurd hr List.not_mem_nil⟩
  | @repeated a issues key first hread hearlier =>
    rw [hread]
    refine ⟨a :: before, rules.found before card.span a issues, [], _, _, rfl, ?_, ?_⟩
    · simp only [keepFirst, hearlier]
      simp [found, Fate.record?, Fate.report?, Fate.repeat?, definitions_repeated]
    · rw [List.append_nil]
      exact code_found hlawful
  | @kept a issues hread hnew =>
    rw [hread]
    refine ⟨a :: before, rules.found before card.span a issues, rules.audits card.span a, _, _,
      rfl, ?_, ?_⟩
    · simp only [keepFirst, hnew]
      simp [found, audits, Fate.record?, Fate.report?, Fate.repeat?, definitions_kept,
        hlawful.key_place]
    · exact fun r hr => (List.mem_append.mp hr).elim (code_found hlawful r) (code_audits hlawful r)

theorem records_fates (hlawful : rules.Lawful) (before : List α) (seen : List (RecordKey × Span))
    (cards : List LogicalCard) :
    (rules.fates seen cards).records = (rules.keepFirst before seen (rules.results cards)).1 := by
  induction cards generalizing before seen with
  | nil => rfl
  | cons card rest ih =>
    obtain ⟨before', found, audits, kept, reports, hnext, hcons, _⟩ :=
      keepFirst_cons hlawful before seen card rest
    have hrest := ih before' (rules.definitions [(card, rules.fate seen card)] ++ seen)
    rw [hnext] at hrest
    rw [hcons, fates, Fates.records, List.filterMap_cons]
    dsimp only
    rw [← show _ = kept from hrest]
    cases (rules.fate seen card).record? <;> rfl

theorem mem_reports_of_mem_fates (hlawful : rules.Lawful) (before : List α)
    (seen : List (RecordKey × Span)) (cards : List LogicalCard) :
    ∀ e ∈ rules.fates seen cards, ∀ r ∈ e.2.report? e.1.span,
      r ∈ (rules.keepFirst before seen (rules.results cards)).2 := by
  induction cards generalizing before seen with
  | nil => exact fun e he => absurd he List.not_mem_nil
  | cons card rest ih =>
    obtain ⟨before', found, audits, kept, reports, hnext, hcons, _⟩ :=
      keepFirst_cons hlawful before seen card rest
    have hrest := ih before' (rules.definitions [(card, rules.fate seen card)] ++ seen)
    rw [hnext] at hrest
    intro e he r hr
    rw [hcons]
    simp only [List.mem_append, Option.mem_toList]
    rcases List.mem_cons.mp he with rfl | he
    · exact .inl (.inl (.inr hr))
    · exact .inr (hrest e he r hr)

/-- Only repeated cards are reported as such, each once. -/
theorem repeats_fates (hlawful : rules.Lawful) (before : List α) (seen : List (RecordKey × Span))
    (cards : List LogicalCard) :
    reportsUnder [.duplicateEntityNumber]
        (rules.keepFirst before seen (rules.results cards)).2 =
      (rules.fates seen cards).repeats := by
  induction cards generalizing before seen with
  | nil => rfl
  | cons card rest ih =>
    obtain ⟨before', found, audits, kept, reports, hnext, hcons, hother⟩ :=
      keepFirst_cons hlawful before seen card rest
    have hrest := ih before' (rules.definitions [(card, rules.fate seen card)] ++ seen)
    rw [hnext] at hrest
    have hnone {rs : List Diagnostic} (hsub : rs ⊆ found ++ audits) :
        reportsUnder [.duplicateEntityNumber] rs = [] :=
      reportsUnder_eq_nil fun r hr => by simpa using hother r (hsub hr)
    have hown : reportsUnder [.duplicateEntityNumber]
        ((rules.fate seen card).report? card.span).toList =
          ((rules.fate seen card).repeat? card.span).toList := by
      cases rules.fate seen card with
      | kept => rfl
      | repeated => rfl
      | unreadable issue =>
        apply reportsUnder_eq_nil
        intro r hr
        obtain rfl := Option.some.inj (Option.mem_toList.mp hr)
        exact fun hcode => issue.fault.code_ne_duplicate (List.mem_singleton.mp hcode)
    rw [hcons, fates, Fates.repeats, List.filterMap_cons]
    simp only [reportsUnder_append, hnone (List.subset_append_left ..),
      hnone (List.subset_append_right ..), hown, hrest, List.nil_append, List.append_nil]
    cases (rules.fate seen card).repeat? card.span <;> rfl

/-- The reading of a block accounts for all of its cards. -/
theorem accounts_fates (hlawful : rules.Lawful) {finish : α → α} {spanOf : α → Span}
    {cards : List LogicalCard} {reports : List Diagnostic}
    (hspan : ∀ span a, spanOf (rules.place span a) = span)
    (hfinish : ∀ a ∈ (rules.keepFirst [] [] (rules.results cards)).1,
      rules.key? (finish a) = rules.key? a ∧ spanOf (finish a) = spanOf a)
    (hreports : (rules.keepFirst [] [] (rules.results cards)).2 ⊆ reports) :
    Accounts rules finish spanOf cards
      ((rules.keepFirst [] [] (rules.results cards)).1.map finish) reports
      (rules.fates [] cards) where
  cards_eq := map_fst_fates cards
  records_eq := by rw [records_fates hlawful []]
  kept := by
    intro card record hmem
    obtain ⟨known, hfate⟩ := fateOf_of_mem hmem
    have hkept : record ∈ (rules.keepFirst [] [] (rules.results cards)).1 := by
      rw [← records_fates hlawful]
      exact List.mem_filterMap.mpr ⟨_, hmem, rfl⟩
    obtain ⟨hkey, hlines⟩ := hfinish record hkept
    cases hfate with
    | @kept a issues hread _ =>
      exact ⟨⟨a, issues, hread, rfl, hlawful.key_place card.span a⟩, hkey,
        hlines.trans (hspan card.span a)⟩
  dropped := by
    intro card x hmem hdropped
    have hreport := mem_reports_of_mem_fates hlawful [] [] cards (card, x) hmem
    cases x with
    | kept => cases hdropped
    | repeated key first => exact ⟨_, hreports (hreport _ rfl), rfl, rfl⟩
    | unreadable issue => exact ⟨_, hreports (hreport _ rfl), issue.fault.severity_code, rfl⟩
  dropped_iff := by
    intro earlier card x later hsplit a issues hread
    have hfate := fateOf_of_split hsplit
    rw [List.append_nil] at hfate
    rw [← exists_earlier_iff]
    cases hfate with
    | unreadable hissue =>
      rw [hread] at hissue
      cases hissue
    | repeated hown hearlier =>
      rw [hread] at hown
      cases hown
      exact iff_of_true rfl ⟨_, hearlier⟩
    | kept hown hnew =>
      rw [hread] at hown
      cases hown
      simp [Fate.record?, hnew]
  repeated := by
    intro earlier card key first later hsplit
    have hfate := fateOf_of_split hsplit
    rw [List.append_nil] at hfate
    cases hfate with
    | @repeated a issues _ _ hread hearlier =>
      obtain ⟨hkey, hlookup⟩ := earlier?_eq_some_iff.mp hearlier
      exact ⟨⟨a, issues, hread, hkey⟩, exists_kept_of_lookup hlookup⟩
  unreadable := by
    intro card issue hmem
    obtain ⟨known, hfate⟩ := fateOf_of_mem hmem
    cases hfate with
    | unreadable hread => exact hread

end BlockRules

end TransportDeck
