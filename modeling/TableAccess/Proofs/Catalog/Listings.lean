import TableAccess.Proofs.Catalog.Merging
import TableAccess.Proofs.Document.Json

/-! Catalogs of documents that list tables with their columns. A document is kept by the names as they
are written before its names are folded, so the order in which it lists its tables is lost: of the tables
with one name the one whose spelling comes last in the order of texts is kept, and only of those that are
spelled the same it is the last one of the document. A catalog of the same tables, listed one after the
other, keeps the last in every case. -/
namespace TableAccess

namespace Catalog
open TableAccess.Document TableAccess.Text
variable {tables : List TableSchema} {t : TableSchema} {name : String}

/-- The order of tables by the spelling of their names. -/
def spellingOrder (a b : TableSchema) : Ordering := compare a.name b.name

instance : Std.TransCmp spellingOrder := inferInstanceAs (Std.TransCmp (compareOn TableSchema.name))

theorem spellingOrder_eq_lt {a b : TableSchema} : spellingOrder a b = .lt ↔ a.name < b.name :=
  compareOfLessAndEq_eq_lt

theorem spellingOrder_beq (a b : TableSchema) : (spellingOrder a b == .eq) = (a.name == b.name) := by
  rw [Bool.eq_iff_iff, beq_iff_eq, beq_iff_eq, spellingOrder, Std.compare_eq_iff_eq]

theorem spellingOrder_ne_gt {a b : TableSchema} : spellingOrder a b ≠ .gt ↔ a.name ≤ b.name := by
  rw [Ne, Std.OrientedCmp.gt_iff_lt, spellingOrder_eq_lt, String.not_lt]

/-- A table of a document is kept among the spellings if it is the last one that is spelled so. -/
theorem mem_spellings : t ∈ sortedOver spellingOrder tables ↔
    (tables.reverse.find? fun u => u.name == t.name) = some t := by
  rw [mem_iff_find?_of_pairwise pairwise_sortedOver, find?_sortedOver]
  simp only [spellingOrder_beq]

theorem mem_of_mem_spellings (kept : t ∈ sortedOver spellingOrder tables) : t ∈ tables :=
  List.mem_reverse.mp (List.mem_of_find?_eq_some (mem_spellings.mp kept))

/-- Every spelling of a name is kept. -/
theorem exists_mem_spellings (listed : t ∈ tables) :
    ∃ u ∈ sortedOver spellingOrder tables, u.name = t.name := by
  obtain ⟨u, found⟩ : ∃ u, (tables.reverse.find? fun w => w.name == t.name) = some u :=
    Option.isSome_iff_exists.mp (List.find?_isSome.mpr ⟨t, List.mem_reverse.mpr listed, beq_self_eq_true _⟩)
  have spelled : u.name = t.name := by simpa using List.find?_some found
  exact ⟨u, mem_spellings.mpr (by rw [spelled]; exact found), spelled⟩

/-- The last of the spellings that have a name is the greatest. -/
theorem find?_ofListing : (ofListing tables).find? name = some t ↔
    sameName t.name name = true ∧ (tables.reverse.find? fun u => u.name == t.name) = some t ∧
      ∀ u ∈ tables, sameName u.name name = true → u.name ≤ t.name := by
  have lookup : (ofListing tables).find? name =
      (sortedOver spellingOrder tables).reverse.find? fun u => sameName u.name name := find?_ofTables
  have greatest : (∀ u ∈ sortedOver spellingOrder tables, sameName u.name name = true →
      spellingOrder u t ≠ .gt) ↔ ∀ u ∈ tables, sameName u.name name = true → u.name ≤ t.name := by
    simp only [spellingOrder_ne_gt]
    refine ⟨fun all u listed named => ?_, fun all u kept => all u (mem_of_mem_spellings kept)⟩
    obtain ⟨v, kept, spelled⟩ := exists_mem_spellings listed
    rw [← spelled] at named ⊢
    exact all v kept named
  rw [lookup, find?_reverse_eq_some_iff pairwise_sortedOver, mem_spellings, greatest, and_left_comm]

/-- A table that is added after another one of its name takes its place. -/
theorem ofTables_replaced {u : TableSchema} (same : sameName t.name u.name = true) :
    ofTables [t, u] = ofTables [u] := by
  refine ordered_ofTables.ext ordered_ofTables fun name => ?_
  rw [find?_ofTables, find?_ofTables]
  have alike := sameName_congr same name
  cases named : sameName u.name name <;> simp [alike, named]

/-- Whether of the tables that share a name the last one has the greatest spelling. -/
def LastSpelledHighest (tables : List TableSchema) : Prop :=
  ∀ t, (tables.reverse.find? fun u => sameName u.name t.name) = some t →
    ∀ u ∈ tables, sameName u.name t.name = true → u.name ≤ t.name

instance (tables : List TableSchema) : Decidable (LastSpelledHighest tables) :=
  decidable_of_iff (∀ t ∈ tables, (tables.reverse.find? fun u => sameName u.name t.name) = some t →
      ∀ u ∈ tables, sameName u.name t.name = true → u.name ≤ t.name)
    ⟨fun all t last => all t (List.mem_reverse.mp (List.mem_of_find?_eq_some last)) last,
      fun all t _ => all t⟩

/-- A document is a catalog of its tables one after the other exactly if of each name the last
spelling is the greatest. -/
theorem ofListing_eq_ofTables_iff : ofListing tables = ofTables tables ↔ LastSpelledHighest tables := by
  constructor
  · intro same t last
    have found : (ofListing tables).find? t.name = some t := by
      rw [same, find?_ofTables]
      exact last
    exact (find?_ofListing.mp found).2.2
  · intro highest
    refine ordered_ofTables.ext ordered_ofTables fun name => ?_
    change (ofListing tables).find? name = (ofTables tables).find? name
    cases found : (ofTables tables).find? name with
    | none =>
      refine Option.eq_none_iff_forall_ne_some.mpr fun t kept => ?_
      obtain ⟨same, listed, _⟩ := find?_ofListing.mp kept
      rw [find?_ofTables] at found
      exact List.find?_eq_none.mp found t (List.mem_of_find?_eq_some listed) same
    | some t =>
      have same := sameName_of_find? found
      have last : (tables.reverse.find? fun u => sameName u.name t.name) = some t := by
        rw [← find?_ofTables, find?_congr same, found]
      have spelled : (tables.reverse.find? fun u => u.name == t.name) = some t := by
        obtain ⟨_, later, before, split, others⟩ := List.find?_eq_some_iff_append.mp last
        refine List.find?_eq_some_iff_append.mpr ⟨beq_self_eq_true _, later, before, split, fun u held => ?_⟩
        have unnamed := others u held
        cases alike : u.name == t.name with
        | false => rfl
        | true =>
          rw [beq_iff_eq.mp alike, sameName_refl] at unnamed
          cases unnamed
      refine find?_ofListing.mpr ⟨same, spelled, fun u listed named => ?_⟩
      refine highest t last u listed ?_
      rw [sameName_comm, sameName_congr same, sameName_comm]
      exact named

/-- The tables that a document lists. -/
def listedTables (l : Json.Listing) : List TableSchema := l.contents.map fun (name, columns) => ⟨name, columns⟩

theorem columnNames_texts (texts : List String) :
    columnNames (.list (texts.map .text)) = .ok texts := by
  rw [columnNames]
  induction texts with
  | nil => rfl
  | cons name rest ih => rw [List.map_cons, List.mapM_cons, ih]; rfl

theorem namedTables_contents (contents : List (String × List String)) :
    namedTables (.table (contents.map fun (name, texts) => (some name, .list (texts.map .text)))) =
      .ok (contents.map fun (name, columns) => ⟨name, columns⟩) := by
  rw [namedTables]
  induction contents with
  | nil => rfl
  | cons pair rest ih =>
    obtain ⟨name, texts⟩ := pair
    simp only [List.map_cons, List.mapM_cons, columnNames_texts, ih]
    rfl

/-- A listing is loaded, however it is written. -/
theorem ofJson_written (l : Json.Listing) :
    ofJson (String.ofList l.written) = .ok (ofListing (listedTables l)) := by
  rw [ofJson, Json.read_listing, namedTables_contents]
  rfl

/-- **A document gives the catalog of its tables one after the other exactly if of each name the last
spelling is the greatest.** Of tables with one name it keeps the greatest spelling, however it is written. -/
theorem document_as_listed_iff (tables : List TableSchema) :
    (∃ l, listedTables l = tables) ∧ ∃ c : Catalog,
      (∀ l, listedTables l = tables → ofJson (String.ofList l.written) = .ok c) ∧
      (∀ name t, c.find? name = some t ↔ sameName t.name name = true ∧
        (tables.reverse.find? fun u => u.name == t.name) = some t ∧
          ∀ u ∈ tables, sameName u.name name = true → u.name ≤ t.name) ∧
      (c = ofTables tables ↔ LastSpelledHighest tables) := by
  refine ⟨?_, ofListing tables, ?_, fun name t => find?_ofListing, ofListing_eq_ofTables_iff⟩
  · obtain ⟨l, same⟩ := Json.Listing.exists_of_contents (tables.map fun t => (t.name, t.columns))
    refine ⟨l, ?_⟩
    rw [listedTables, same, List.map_map]
    exact List.map_id _
  · rintro l rfl
    exact ofJson_written l

/-- A document that declares a table of users, and then one of members under two spellings of their
name, the second by code units. -/
def membersListing : Json.Listing :=
  let none_ : Json.Gap := ⟨[], by simp⟩
  let space : Json.Gap := ⟨[' '], by simp⟩
  let line : Json.Gap := ⟨['\n', '\t'], by simp⟩
  let id : Json.Spaced Json.Quoted := ⟨none_, .plain "id" (by simp), none_⟩
  let email : Json.Spaced Json.Quoted := ⟨space, .plain "email" (by simp), space⟩
  let small : Json.Quoted := ⟨.unit ⟨'0', '0', '6', 'D', 0x6d, by decide⟩ (by decide) ::
    (Json.Quoted.plain "embers" (by simp)).spellings⟩
  { front := line
    gap := none_
    entries :=
      [⟨none_, ⟨.plain "users" (by simp), none_, space, none_, [id]⟩, none_⟩,
        ⟨space, ⟨.plain "Members" (by simp), none_, space, none_, [id, email]⟩, none_⟩,
        ⟨line, ⟨small, space, space, line, []⟩, line⟩]
    behind := line }

theorem document_as_listed_iff_members :
    let tables : List TableSchema := [⟨"users", ["id"]⟩, ⟨"Members", ["id", "email"]⟩, ⟨"members", []⟩]
    String.ofList membersListing.written =
        "\n\t\x7b\"users\": [\"id\"], \"Members\": [\"id\", \"email\" ],\n\t\"\\u006Dembers\" : [\n\t]\n\t\x7d\n\t" ∧
      listedTables membersListing = tables ∧
      ofJson (String.ofList membersListing.written) = .ok (ofTables tables) := by
  intro tables
  have listed : listedTables membersListing = tables := by decide +kernel
  obtain ⟨_, c, loaded, _, same⟩ := document_as_listed_iff tables
  refine ⟨by decide +kernel, listed, (loaded membersListing listed).trans (congrArg Except.ok ?_)⟩
  exact same.mpr (by decide +kernel)

/-- A document that declares the table of users twice, in lower and in upper case. -/
def usersListing : Json.Listing :=
  let none_ : Json.Gap := ⟨[], by simp⟩
  let space : Json.Gap := ⟨[' '], by simp⟩
  let id : Json.Spaced Json.Quoted := ⟨none_, .plain "id" (by simp), none_⟩
  let email : Json.Spaced Json.Quoted := ⟨space, .plain "email" (by simp), none_⟩
  { front := none_
    gap := none_
    entries :=
      [⟨none_, ⟨.plain "users" (by simp), none_, space, none_, [id]⟩, none_⟩,
        ⟨space, ⟨.plain "USERS" (by simp), none_, space, none_, [id, email]⟩, none_⟩]
    behind := none_ }

/-- The second declaration is lost, since small letters are greater than capital ones. -/
theorem later_declaration_lost :
    String.ofList usersListing.written = "\x7b\"users\": [\"id\"], \"USERS\": [\"id\", \"email\"]\x7d" ∧
      listedTables usersListing = [⟨"users", ["id"]⟩, ⟨"USERS", ["id", "email"]⟩] ∧
      ofTables [⟨"users", ["id"]⟩, ⟨"USERS", ["id", "email"]⟩] = ofTables [⟨"USERS", ["id", "email"]⟩] ∧
      ofJson (String.ofList usersListing.written) = .ok (ofTables [⟨"users", ["id"]⟩]) ∧
      ofJson (String.ofList usersListing.written) ≠
        .ok (ofTables [⟨"users", ["id"]⟩, ⟨"USERS", ["id", "email"]⟩]) := by
  have same : sameName "users" "USERS" = true :=
    sameName_iff.mpr (fold_eq_fold_iff.mpr (by decide +kernel))
  have listed : listedTables usersListing = [⟨"users", ["id"]⟩, ⟨"USERS", ["id", "email"]⟩] := by
    decide +kernel
  have kept : ofListing (listedTables usersListing) = ofTables [⟨"users", ["id"]⟩] := by
    have spelled : sortedOver spellingOrder (listedTables usersListing) =
        [⟨"USERS", ["id", "email"]⟩, ⟨"users", ["id"]⟩] := by decide +kernel
    exact (congrArg ofTables spelled).trans (ofTables_replaced (by rw [sameName_comm]; exact same))
  have loaded : ofJson (String.ofList usersListing.written) = .ok (ofTables [⟨"users", ["id"]⟩]) :=
    (ofJson_written usersListing).trans (congrArg Except.ok kept)
  have distinct : ofTables [⟨"users", ["id"]⟩] ≠ ofTables [⟨"USERS", ["id", "email"]⟩] := by
    intro same
    have tables : (ofTables [⟨"users", ["id"]⟩]).tables ≠
        (ofTables [⟨"USERS", ["id", "email"]⟩]).tables := by decide +kernel
    exact tables (congrArg Catalog.tables same)
  exact ⟨by decide +kernel, listed, ofTables_replaced same, loaded, fun expected =>
    distinct ((Except.ok.inj (loaded.symm.trans expected)).trans (ofTables_replaced same))⟩

end Catalog
end TableAccess
