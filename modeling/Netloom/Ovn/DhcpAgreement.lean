import Netloom.Ovn.Dhcp

/-!
# When the written DHCP options are the audited ones

The texts on the switch keep the settings of a subnet as they are, except for
white space around a search domain and for what stands in the zone of a server.
The audit drops repeated search domains for IPv6, which the writer keeps.
-/
namespace Netloom.Ovn

open Model List Fold Strings Text
open Netip (Addr)

variable (family : Family)

/-- The servers are read back from their texts. -/
def PlainServers (servers : List Addr) : Prop :=
  match family with
  | .v4 => ∀ server ∈ servers, server.is6 = true → ∀ piece ∈ split server.string ',',
      ∀ word, Netip.parseAddr (trimSpace piece) ≠ some (.v4 word)
  | .v6 => ∀ server ∈ servers, ',' ∉ server.string.toList ∧ trimSpace server.string = server.string

/-- The search domains are read back from their texts and not repeated. -/
def PlainDomains (domains : List String) : Prop :=
  (∀ domain ∈ domains, trimSpace domain = domain) ∧ (family = .v6 → domains.Nodup)

/-! ### Lists as texts -/

theorem splitCSV_join (texts : List String) : splitCSV (",".intercalate texts) =
    ((texts.flatMap (split · ',')).map trimSpace).filter (· ≠ "") := by
  have pieces : ∀ text, split text ',' =
      (splitOn ',' text.toList).map String.ofList := fun _ => rfl
  cases texts with
  | nil => rfl
  | cons first rest =>
    have cut : split (",".intercalate (first :: rest)) ',' =
        (first :: rest).flatMap (split · ',') := by
      have comma : ",".toList = [','] := rfl
      rw [pieces, String.toList_intercalate, comma, splitOn_join ',' (by simp),
        map_flatMap, flatMap_map]
      rfl
    unfold splitCSV
    split
    · next empty =>
      -- The empty text is cut into one empty piece, which is dropped.
      rw [← cut, empty]
      rfl
    · rw [cut]

/-- What the writer keeps of one piece of the text of servers. -/
def keep (piece : String) : Option String :=
  ((Netip.parseAddr (trimSpace piece)).filter family.holds).map Addr.string

theorem keep_v4_eq_none {piece : String} : keep .v4 piece = none ↔
    ∀ word, Netip.parseAddr (trimSpace piece) ≠ some (.v4 word) := by
  rw [keep]
  cases Netip.parseAddr (trimSpace piece) with
  | none => simp
  | some ip => cases ip <;> simp [Option.filter, Family.holds, Addr.is4]

/-- The pieces the text of servers is cut into. -/
def piecesOf (servers : List Addr) : List String :=
  servers.flatMap fun server => split server.string ','

theorem filteredServers_joinAddrs (servers : List Addr) :
    filteredServers family (joinAddrs servers) = (piecesOf servers).filterMap (keep family) := by
  rw [filteredServers, joinAddrs, splitCSV_join, flatMap_map, filterMap_filter, filterMap_map]
  refine filterMap_congr fun piece _ => ?_
  rw [Function.comp_apply, keep]
  split
  · rfl
  · next empty =>
    have none : trimSpace piece = "" := by simpa using empty
    rw [none]
    rfl

theorem split_of_free {text : String} (free : ',' ∉ text.toList) : split text ',' = [text] := by
  rw [split, splitOn_eq_singleton free, map_singleton, String.ofList_toList]

theorem piecesOf_of_free {servers : List Addr}
    (free : ∀ server ∈ servers, ',' ∉ server.string.toList) :
    piecesOf servers = servers.map Addr.string := by
  rw [piecesOf, flatMap_congr fun server member => split_of_free (free server member),
    ← map_eq_flatMap]

/-- Servers without commas and outer white space in their texts are read back. -/
theorem filteredServers_of_plain {servers : List Addr}
    (valid : ∀ server ∈ servers, server.isValid) (plain : PlainServers .v6 servers) :
    filteredServers family (joinAddrs servers) = (servers.filter family.holds).map Addr.string := by
  rw [filteredServers_joinAddrs, piecesOf_of_free fun server member => (plain server member).1,
    filterMap_map, ← filterMap_eq_map, filterMap_filter]
  refine filterMap_congr fun server member => ?_
  rw [Function.comp_apply, keep, (plain server member).2,
    Netip.parseAddr_string server (valid server member), Option.filter_some]
  split <;> rfl

/-! ### Texts of servers -/

theorem isSpace_digitChar (digit : Nat) : isSpace (Nat.digitChar digit) = false :=
  forall_digitChar (P := fun c => isSpace c = false) (by decide) (by decide) digit

section Plain

variable {ip : Addr} (valid : ip.isValid) (plain : ip.zone = "")
include valid plain

theorem isSpace_of_mem_text {c : Char} (member : c ∈ ip.text) : isSpace c = false := by
  by_contra space
  refine Addr.notMem_text ?_ ?_ ?_ valid plain member
  · rintro rfl
    exact space (by decide)
  · rintro rfl
    exact space (by decide)
  · rintro digit rfl
    exact space (isSpace_digitChar digit)

/-- The text of an address without a zone is read back. -/
theorem trimSpace_string : trimSpace ip.string = ip.string := by
  have chars : ip.string.toList = ip.text := String.toList_ofList
  refine trimSpace_eq_self ?_ ?_
  · intro c first
    rw [chars] at first
    exact isSpace_of_mem_text valid plain (mem_of_mem_head? first)
  · intro c last
    rw [chars] at last
    exact isSpace_of_mem_text valid plain (mem_of_mem_getLast? last)

end Plain

/-- Only the end of the zone is trimmed, and an address without its zone is not read. -/
theorem keep_v6 {word : BitVec 128} {zone value : String}
    (kept : keep .v6 (Addr.v6 word zone).string = some value) :
    value = trimSpace (Addr.v6 word zone).string := by
  have colon := Netip.colon_mem_text6 word
  obtain ⟨first, rest, text⟩ := exists_cons_of_ne_nil (ne_nil_of_mem colon)
  -- A text that is an address again is what it is read as.
  have again : ∀ zone', trimSpace (Addr.v6 word zone).string = (Addr.v6 word zone').string →
      value = trimSpace (Addr.v6 word zone).string := by
    intro zone' trimmed
    rw [keep, trimmed, Netip.parseAddr_string _ rfl] at kept
    rw [trimmed]
    exact (Option.some.inj kept).symm
  by_cases named : zone = ""
  · exact again zone (trimSpace_string rfl named)
  · have chars : (Addr.v6 word zone).string.toList = Netip.text6 word ++ '%' :: zone.toList := by
      rw [Addr.string, String.toList_ofList, Netip.Addr.text_v6, if_neg named]
    have front : (Netip.text6 word ++ '%' :: zone.toList).dropWhile isSpace =
        Netip.text6 word ++ '%' :: zone.toList := by
      have visible : isSpace first = false :=
        isSpace_of_mem_text rfl rfl (show first ∈ (Addr.v6 word "").text by
          simp [Netip.Addr.text_v6, text])
      rw [text]
      exact dropWhile_cons_of_neg (by simp [visible])
    have back : (zone.toList.reverse ++ '%' :: (Netip.text6 word).reverse).dropWhile
        isSpace = zone.toList.reverse.dropWhile isSpace ++ '%' :: (Netip.text6 word).reverse := by
      rw [dropWhile_append]
      split
      · next empty =>
        rw [isEmpty_iff.mp empty]
        rfl
      · rfl
    have trimmed : (trimSpace (Addr.v6 word zone).string).toList = Netip.text6 word ++
        '%' :: (zone.toList.reverse.dropWhile isSpace).reverse := by
      rw [toList_trimSpace, chars, front]
      simp [back]
    by_cases blank : (zone.toList.reverse.dropWhile isSpace).reverse = []
    · have read := Netip.parseAddr_emptyZone word
      rw [blank] at trimmed
      rw [← trimmed, String.ofList_toList] at read
      simp [keep, read] at kept
    · refine again (String.ofList (zone.toList.reverse.dropWhile isSpace).reverse) ?_
      apply String.toList_injective
      rw [trimmed, Addr.string, String.toList_ofList, Netip.Addr.text_v6,
        if_neg (by simpa using blank), String.toList_ofList]

/-! ### What the text of a set tells about its members -/

section Measures

/-- The sum of a measure over the characters of the members. -/
def total (measure : List Char → Nat) (values : List String) : Nat :=
  (values.map fun value => measure value.toList).sum

variable (measure : List Char → Nat)
  (append : ∀ a b, measure (a ++ b) = measure a + measure b)
include append

/-- What adds up over texts, for the text of a set: each member has two quotation marks. -/
theorem measure_set (values : List String) :
    measure (ovnStringSetValues values).toList = total measure values +
      2 * values.length * measure [doubleQuote] + (values.length - 1) * measure [','] +
      measure ['['] + measure [']'] := by
  have sorted := sortStrings_perm values
  have text : (ovnStringSetValues values).toList = ['['] ++ (intercalate [',']
      ((sortStrings values).map fun value => [doubleQuote] ++ (value.toList ++ [doubleQuote])) ++
      [']']) := by
    have quoted : String.toList ∘ ovnStringValue = fun value =>
        [doubleQuote] ++ (value.toList ++ [doubleQuote]) := by
      funext value
      simp [ovnStringValue]
    have comma : ",".toList = [','] := rfl
    simp only [ovnStringSetValues, String.toList_append, String.toList_intercalate, comma,
      map_map, quoted]
    rfl
  have quoted : (((sortStrings values).map fun value =>
      [doubleQuote] ++ (value.toList ++ [doubleQuote])).map measure).sum =
      total measure values + 2 * values.length * measure [doubleQuote] := by
    rw [← sorted.length_eq, total, ← (sorted.map _).sum_eq]
    induction sortStrings values with
    | nil => simp
    | cons value rest ih =>
      simp only [map_cons, sum_cons, append, ih, length_cons]
      ring
  rw [text, append, append, measure_join _ _ append, quoted, length_map, sorted.length_eq]
  ring

theorem measure_of_sameText {left right : List String}
    (text : ovnStringSetValues left = ovnStringSetValues right) :
    total measure left + 2 * left.length * measure [doubleQuote] +
        (left.length - 1) * measure [','] =
      total measure right + 2 * right.length * measure [doubleQuote] +
        (right.length - 1) * measure [','] := by
  have texts := congrArg (fun text => measure text.toList) text
  simp only [measure_set measure append] at texts
  omega

end Measures

theorem ifAny_eq_iff {render : List String → String} {left right : List String} :
    ifAny render left = ifAny render right ↔
      (left = [] ↔ right = []) ∧ (left ≠ [] → render left = render right) := by
  cases left <;> cases right <;> simp [ifAny]

/-! ### Servers -/

section Servers

variable {servers : List Addr}

/-- A piece of a text of servers that is kept has as many quotation marks as before. -/
theorem count_keep {family : Family} {piece value : String} (kept : keep family piece = some value)
    {c : Char} (foreign : Netip.Foreign c) (visible : isSpace c = false) :
    value.toList.count c = piece.toList.count c := by
  obtain ⟨ip, read, rfl⟩ := Option.map_eq_some_iff.mp kept
  have parsed := (Option.filter_eq_some_iff.mp read).1
  rw [Addr.string, String.toList_ofList, Netip.count_text_of_parseAddr foreign parsed,
    count_trimSpace visible]

theorem count_pieces {c : Char} (other : c ≠ ',') :
    total (count c) (piecesOf servers) = total (count c) (servers.map Addr.string) := by
  induction servers with
  | nil => rfl
  | cons server rest ih =>
    have pieces := count_splitOn other server.string.toList
    simp only [total, piecesOf, flatMap_cons, map_append, sum_append, map_cons, sum_cons] at ih ⊢
    rw [ih, split, map_map]
    simp [Function.comp_def, pieces]

theorem length_pieces : (piecesOf servers).length =
    total (count ',') (servers.map Addr.string) + servers.length := by
  induction servers with
  | nil => rfl
  | cons server rest ih =>
    simp only [total, piecesOf, flatMap_cons, length_append, map_cons, sum_cons,
      length_cons] at ih ⊢
    rw [ih, split, length_map, length_splitOn]
    omega

theorem free_pieces {piece : String} (member : piece ∈ piecesOf servers) :
    piece.toList.count ',' = 0 := by
  obtain ⟨server, _, inside⟩ := mem_flatMap.mp member
  obtain ⟨chars, cut, rfl⟩ := mem_map.mp inside
  rw [String.toList_ofList]
  exact count_eq_zero_of_not_mem (notMem_of_mem_splitOn cut)

/-- If the sets have the same text, no text of a server has a comma and all are kept. -/
theorem kept_of_sameText (some : servers ≠ [])
    (same : ifAny ovnStringSetValues (filteredServers .v6 (joinAddrs servers)) =
      ifAny ovnStringSetValues (servers.map Addr.string)) :
    (∀ server ∈ servers, ',' ∉ server.string.toList) ∧
      (∀ server ∈ servers, (keep .v6 server.string).isSome) ∧
      total length (filteredServers .v6 (joinAddrs servers)) =
        total length (servers.map Addr.string) := by
  obtain ⟨both, texts⟩ := ifAny_eq_iff.mp same
  have written : filteredServers .v6 (joinAddrs servers) ≠ [] := by simpa [both] using some
  have text := texts written
  rw [filteredServers_joinAddrs] at written text ⊢
  have commas := measure_of_sameText (count ',') (fun _ _ => count_append) text
  have quotes := measure_of_sameText (count doubleQuote) (fun _ _ => count_append) text
  have lengths := measure_of_sameText length (fun _ _ => length_append) text
  simp only [length_map, show count ',' [doubleQuote] = 0 from rfl,
    show count doubleQuote [','] = 0 from rfl, count_singleton_self, length_singleton]
    at commas quotes lengths
  have positive := length_pos_iff.mpr written
  have positive' := length_pos_iff.mpr some
  have pieces : (piecesOf servers).length = _ := length_pieces
  -- The kept pieces have no commas, so as many are kept as there are pieces.
  have free : total (count ',') ((piecesOf servers).filterMap (keep .v6)) = 0 := by
    refine sum_eq_zero fun n member => ?_
    obtain ⟨value, inside, rfl⟩ := mem_map.mp member
    obtain ⟨piece, listed, kept⟩ := mem_filterMap.mp inside
    rw [count_keep kept Netip.foreign_comma (by decide), free_pieces listed]
  have all := filterMap_length_eq_length.mp
    (show ((piecesOf servers).filterMap (keep .v6)).length = _ by omega)
  -- Then all quotation marks inside the texts are kept, and their number tells how many there are.
  have marks : total (count doubleQuote) ((piecesOf servers).filterMap (keep .v6)) =
      total (count doubleQuote) (servers.map Addr.string) := by
    rw [← count_pieces (by decide)]
    exact sum_filterMap all fun piece _ value kept =>
      count_keep kept Netip.foreign_doubleQuote (by decide)
  have none : total (count ',') (servers.map Addr.string) = 0 := by omega
  have noComma : ∀ server ∈ servers, ',' ∉ server.string.toList := by
    intro server member inside
    have zero := sum_eq_zero_iff.mp none (server.string.toList.count ',')
      (mem_map.mpr ⟨server.string, mem_map.mpr ⟨server, member, rfl⟩, rfl⟩)
    exact absurd inside (count_eq_zero.mp zero)
  refine ⟨noComma, fun server member => ?_, by omega⟩
  refine all server.string (mem_flatMap.mpr ⟨server, member, ?_⟩)
  rw [split_of_free (noComma server member)]
  exact mem_singleton.mpr rfl

theorem exists_v6 {ip : Addr} (six : ip.is6) : ∃ word zone, ip = .v6 word zone := by
  cases ip with
  | zero | v4 => simp [Addr.is6] at six
  | v6 word zone => exact ⟨word, zone, rfl⟩

/-- Each server that is kept is read back with its zone trimmed. -/
theorem total_length_filteredServers (six : ∀ server ∈ servers, server.is6)
    (free : ∀ server ∈ servers, ',' ∉ server.string.toList)
    (kept : ∀ server ∈ servers, (keep .v6 server.string).isSome) :
    total length (filteredServers .v6 (joinAddrs servers)) =
      (servers.map fun server => (trimSpace server.string).toList.length).sum := by
  have lengths : ∀ server ∈ servers, ∀ value, keep .v6 server.string = some value →
      value.toList.length = (trimSpace server.string).toList.length := by
    intro server member value found
    obtain ⟨word, zone, rfl⟩ := exists_v6 (six server member)
    rw [keep_v6 found]
  rw [filteredServers_joinAddrs, piecesOf_of_free free, filterMap_map, Function.comp_def, total,
    sum_filterMap kept lengths]

theorem plain_of_sameText (six : ∀ server ∈ servers, server.is6)
    (same : ifAny ovnStringSetValues (filteredServers .v6 (joinAddrs servers)) =
      ifAny ovnStringSetValues (servers.map Addr.string)) : PlainServers .v6 servers := by
  by_cases some : servers = []
  · simp [some, PlainServers]
  obtain ⟨free, kept, lengths⟩ := kept_of_sameText some same
  rw [total_length_filteredServers six free kept, total, map_map, Function.comp_def]
    at lengths
  -- The lengths allow no trimming.
  have each : ∀ server ∈ servers,
      (trimSpace server.string).toList.length = server.string.toList.length :=
    eq_of_sum_eq (fun server _ => length_trimSpace_le server.string) lengths
  intro server member
  exact ⟨free server member, trimSpace_of_length (Nat.le_of_eq (each server member).symm)⟩

/-- The servers that are written are those that are audited. -/
theorem servers_agree_iff {four : Bool}
    (valid : ∀ server ∈ servers, server.isValid) (uniform : ∀ server ∈ servers, server.is4 = four) :
    ifAny ovnStringSetValues (filteredServers family (joinAddrs servers)) =
        ifAny ovnStringSetValues ((servers.filter family.holds).map Addr.string) ↔
      PlainServers family servers := by
  cases four with
  | true =>
    have plain : PlainServers .v6 servers := by
      intro server member
      cases server with
      | zero | v6 => exact absurd (uniform _ member) (by simp [Addr.is4])
      | v4 word =>
        refine ⟨?_, trimSpace_string rfl rfl⟩
        rw [Addr.string, String.toList_ofList]
        exact Addr.notMem_text_of_zone Netip.foreign_comma rfl rfl
    rw [filteredServers_of_plain family valid plain]
    refine iff_of_true rfl ?_
    cases family with
    | v4 =>
      intro server member six
      cases server with
      | zero | v4 => simp [Addr.is6] at six
      | v6 => exact absurd (uniform _ member) (by simp [Addr.is4])
    | v6 => exact plain
  | false =>
    have six : ∀ server ∈ servers, server.is6 := by
      intro server member
      cases server with
      | zero => exact absurd (valid _ member) (by simp [Addr.isValid])
      | v4 => exact absurd (uniform _ member) (by simp [Addr.is4])
      | v6 => rfl
    cases family with
    | v4 =>
      have empty : servers.filter (Family.holds .v4) = [] :=
        filter_eq_nil_iff.mpr fun server member => by simp [Family.holds, uniform server member]
      have none : ∀ values, ifAny ovnStringSetValues values = ifAny ovnStringSetValues [] ↔
          values = [] := by simp [ifAny]
      rw [empty, map_nil, none, filteredServers_joinAddrs, piecesOf]
      simp only [filterMap_eq_nil_iff, mem_flatMap, forall_exists_index, and_imp, keep_v4_eq_none,
        PlainServers]
      grind
    | v6 =>
      have all : servers.filter (Family.holds .v6) = servers :=
        filter_eq_self.mpr six
      rw [all]
      refine ⟨plain_of_sameText six, fun plain => ?_⟩
      rw [filteredServers_of_plain .v6 valid plain, all]

end Servers

/-! ### Search domains -/

section Domains

variable {domains : List String}

theorem map_trimSpace (trimmed : ∀ domain ∈ domains, trimSpace domain = domain) :
    domains.map trimSpace = domains :=
  (map_congr_left trimmed).trans (map_id domains)

variable (read : ∀ domain ∈ domains, trimSpace domain ≠ "" ∧ ',' ∉ domain.toList)

include read in
theorem splitCSV_domains : splitCSV (",".intercalate domains) = domains.map trimSpace := by
  rw [splitCSV_join, flatMap_congr fun domain member => split_of_free (read domain member).2,
    flatMap_singleton', filter_eq_self]
  intro text member
  obtain ⟨domain, listed, rfl⟩ := mem_map.mp member
  simpa using (read domain listed).1

include read in
theorem domains_agree_v4 : ifAny ovnStringSetValues (splitCSV (",".intercalate domains)) =
        ifAny ovnStringSetValues domains ↔ PlainDomains .v4 domains := by
  rw [splitCSV_domains read]
  constructor
  · intro same
    refine ⟨?_, by simp⟩
    by_cases some : domains = []
    · simp [some]
    have text := (ifAny_eq_iff.mp same).2 (by simpa using some)
    have lengths := measure_of_sameText length (fun _ _ => length_append) text
    simp only [length_map, total, map_map] at lengths
    have each := eq_of_sum_eq (fun domain _ => length_trimSpace_le domain)
      (show (domains.map fun domain => (trimSpace domain).toList.length).sum =
        (domains.map fun domain => domain.toList.length).sum by
        simp only [Function.comp_def] at lengths
        omega)
    exact fun domain member => trimSpace_of_length (each domain member).ge
  · rintro ⟨trimmed, _⟩
    rw [map_trimSpace trimmed]

theorem withName_cases (name : String) (names : List String) :
    withName name names = names ∨ withName name names = names ++ [name] ∧ name ≠ "" ∧
      name ∉ names := by
  unfold withName
  split
  · next added =>
    simp only [Bool.and_eq_true, decide_eq_true_eq, Bool.not_eq_true', contains_eq_mem,
      decide_eq_false_iff_not] at added
    exact .inr ⟨rfl, added⟩
  · exact .inl rfl

/-- Lists that are joined to the same text, as long as nothing in them has a comma. -/
theorem join_agree_iff {left right : List String} (freeLeft : ∀ text ∈ left, ',' ∉ text.toList)
    (freeRight : ∀ text ∈ right, ',' ∉ text.toList) :
    ifAny ",".intercalate left = ifAny ",".intercalate right ↔ left = right := by
  refine ⟨fun same => ?_, fun same => by rw [same]⟩
  obtain ⟨empty, texts⟩ := ifAny_eq_iff.mp same
  by_cases some : left = []
  · rw [some, empty.mp some]
  have chars := congrArg String.toList (texts some)
  have comma : ",".toList = [','] := rfl
  rw [String.toList_intercalate, String.toList_intercalate, comma] at chars
  have pieces := join_injective ',' _ _ (by simpa using freeLeft) (by simpa using freeRight)
    (by simpa using some) (by simpa [empty] using some) chars
  exact map_injective_iff.mpr (fun _ _ => String.toList_injective) pieces

include read in
theorem domains_agree_v6 {name : String} (noComma : ',' ∉ name.toList) :
    ifAny ",".intercalate (withName name (splitCSV (",".intercalate domains))) =
        ifAny ",".intercalate (withName name (dedupeBy id domains)) ↔
      PlainDomains .v6 domains := by
  obtain ⟨sound, complete, nodup, short⟩ := dedupeBy_spec id domains
  rw [map_id] at nodup
  simp only [id_eq, exists_eq_right] at complete
  have free : ∀ names : List String, (∀ text ∈ names, ',' ∉ text.toList) →
      ∀ text ∈ withName name names, ',' ∉ text.toList := by
    intro names listed text member
    rcases withName_cases name names with same | ⟨added, _⟩
    · exact listed text (same ▸ member)
    · grind
  rw [splitCSV_domains read, join_agree_iff]
  · constructor
    · intro same
      -- What is kept of the domains is among the trimmed ones, so each of them is trimmed.
      have lists : domains.map trimSpace = dedupeBy id domains ∨ domains.map trimSpace =
          dedupeBy id domains ++ [name] ∧ name ∉ dedupeBy id domains := by
        rcases withName_cases name (domains.map trimSpace) with left | ⟨left, _, outside⟩ <;>
          rcases withName_cases name (dedupeBy id domains) with right | ⟨right, _, outside'⟩ <;>
          rw [left, right] at same
        · exact .inl same
        · exact .inr ⟨same, outside'⟩
        · grind
        · exact .inl (append_cancel_right same)
      have trimmed : ∀ domain ∈ domains, trimSpace domain = domain := by
        intro domain member
        have listed : domain ∈ domains.map trimSpace := by
          rcases lists with all | ⟨all, _⟩
          · exact all ▸ complete domain member
          · exact all ▸ mem_append_left _ (complete domain member)
        obtain ⟨source, _, rfl⟩ := mem_map.mp listed
        exact trimSpace_trimSpace source
      rw [map_trimSpace trimmed] at lists
      refine ⟨trimmed, fun _ => ?_⟩
      rcases lists with all | ⟨all, outside⟩
      · exact all ▸ nodup
      · exact absurd (complete name (all ▸ mem_append_right _ (by simp))) outside
    · rintro ⟨trimmed, distinct⟩
      rw [map_trimSpace trimmed, dedupeBy_of_nodup (by simpa using distinct rfl)]
  · refine free _ fun text member => ?_
    obtain ⟨domain, listed, rfl⟩ := mem_map.mp member
    rw [mem_trimSpace (by decide)]
    exact (read domain listed).2
  · exact free _ fun text member => (read text (sound text member)).2

end Domains

/-! ### Whole maps -/

/-- Only the numeral of zero is read as not set. -/
theorem numeral_eq_zero_iff {w : Nat} (word : BitVec w) :
    toString word.toNat = "" ∨ toString word.toNat = "0" ↔ word = 0 := by
  have digits : (toString word.toNat).toList = Nat.toDigits 10 word.toNat :=
    Netip.decimal_eq word.toNat
  constructor
  · rintro (empty | zero)
    · rw [empty] at digits
      exact absurd digits.symm Nat.toDigits_ne_nil
    · rw [zero] at digits
      have value := toDigits_injective 10 (by decide) (by decide) word.toNat 0 digits.symm
      exact BitVec.eq_of_toNat_eq (by simpa using value)
  · rintro rfl
    have zero : (0 : BitVec w).toNat = 0 := BitVec.toNat_zero
    rw [zero]
    exact .inr rfl

theorem string_ne_empty {ip : Addr} (valid : ip.isValid) : ip.string ≠ "" := by
  intro empty
  have parsed := Netip.parseAddr_string ip valid
  rw [empty] at parsed
  exact nomatch parsed

theorem prefix_string_ne_empty {cidr : Netip.Prefix} (valid : cidr.isValid) : cidr.string ≠ "" := by
  intro empty
  have slash := Netip.slash_mem_text valid
  have chars : cidr.string.toList = cidr.text := String.toList_ofList
  rw [← chars, empty] at slash
  exact absurd slash (by decide)

section Rows

variable (sha256 : Sha256) (subnet : Subnet) (family : Family)

/-- The options that do not concern names, as the audit computes them. -/
def baseOptions : StringMap :=
  match family with
  | .v4 =>
    ((((∅ : StringMap).insert "server_id" subnet.gateway.string).insert "server_mac"
      (deterministicMAC sha256 subnet)).insert "router" subnet.gateway.string).insert "lease_time"
        (toString (if subnet.dhcp.leaseTime = 0 then 3600 else subnet.dhcp.leaseTime.toNat))
      |> put "mtu" (if subnet.dhcp.mtu ≠ 0 then some (toString subnet.dhcp.mtu.toNat) else none)
  | .v6 => (∅ : StringMap).insert "server_id" (deterministicMAC sha256 subnet)

theorem lookup_baseOptions {key : String} (name : key ∈ ["dns_server", "domain_name",
    "domain_search_list", "domain_search"]) :
    (baseOptions sha256 subnet family).lookup key = none := by
  simp only [mem_cons, not_mem_nil, or_false] at name
  cases family with
  | v4 =>
    rcases name with rfl | rfl | rfl | rfl <;>
      rw [baseOptions, lookup_put, if_neg (by decide)] <;> rfl
  | v6 => rcases name with rfl | rfl | rfl | rfl <;> rfl

/-- The writer computes the same ones from the texts. -/
theorem desiredEndpointDHCPOptions_eq {endpoint : Endpoint} {subnet : Subnet} {family : Family}
    (accepted : subnet.validate = .ok ()) (enabled : subnet.dhcp.enabled)
    (holds : family.holds endpoint.ip) :
    desiredEndpointDHCPOptions endpoint (logicalSwitchExternalIDs subnet)
        (some (deterministicMAC sha256 subnet)) family =
      .ok (some ⟨subnet.cidr.string, addDHCPDNSOptions (logicalSwitchExternalIDs subnet) family
        (baseOptions sha256 subnet family)⟩) := by
  have cidr := prefix_string_ne_empty (Subnet.of_validate accepted).1
  have gateway := string_ne_empty (Subnet.gateway_of_validate accepted)
  have on : toString subnet.dhcp.enabled = "true" := by rw [enabled]; rfl
  have read := valueAt_switchIDs subnet
  simp only [switchIDs, forall_mem_cons] at read
  rw [desiredEndpointDHCPOptions]
  simp only [read, on, holds, cidr, gateway, ne_eq, not_true_eq_false, or_self, if_false]
  cases family with
  | v6 => rfl
  | v4 =>
    have lease : (if toString subnet.dhcp.leaseTime.toNat = "" ∨
        toString subnet.dhcp.leaseTime.toNat = "0" then "3600"
        else toString subnet.dhcp.leaseTime.toNat) =
        toString (if subnet.dhcp.leaseTime = 0 then 3600 else subnet.dhcp.leaseTime.toNat) := by
      simp only [numeral_eq_zero_iff]
      split <;> rfl
    have mtu : (if toString subnet.dhcp.mtu.toNat ≠ "" ∧ toString subnet.dhcp.mtu.toNat ≠ "0"
        then some (toString subnet.dhcp.mtu.toNat) else none) =
        if subnet.dhcp.mtu ≠ 0 then some (toString subnet.dhcp.mtu.toNat) else none := by
      simp only [ne_eq, ← not_or, numeral_eq_zero_iff]
    rw [baseOptions, ← lease, ← mtu]
    rfl

theorem expectedEndpointDHCPOptionsColumns_eq :
    expectedEndpointDHCPOptionsColumns sha256 subnet family = ⟨subnet.cidr.string,
      addExpectedDHCPDNSOptions subnet.dhcp family (baseOptions sha256 subnet family)⟩ := by
  cases family <;> rfl

/-- The two maps agree exactly if the servers and the search domains are read back. -/
theorem options_agree_iff {subnet : Subnet} (accepted : subnet.validate = .ok ())
    (enabled : subnet.dhcp.enabled) :
    (∀ key, (addDHCPDNSOptions (logicalSwitchExternalIDs subnet) family
        (baseOptions sha256 subnet family)).lookup key =
        (expectedEndpointDHCPOptionsColumns sha256 subnet family).options.lookup key) ↔
      PlainServers family subnet.dhcp.dnsServers ∧
        PlainDomains family subnet.dhcp.searchDomains := by
  obtain ⟨checked, uniform⟩ := Subnet.dhcp_of_validate accepted
  have dhcp := DHCPOptions.accepted_of_validate checked enabled
  have servers := servers_agree_iff family dhcp.servers uniform
  have read := valueAt_switchIDs subnet
  simp only [switchIDs, forall_mem_cons] at read
  rw [expectedEndpointDHCPOptionsColumns_eq]
  have base : ∀ key ∈ ["dns_server", "domain_name", "domain_search_list", "domain_search"],
      (baseOptions sha256 subnet family).lookup key = none :=
    fun key => lookup_baseOptions sha256 subnet family
  generalize baseOptions sha256 subnet family = options at base ⊢
  simp only [forall_mem_cons, not_mem_nil, false_imp_iff, implies_true, and_true] at base
  obtain ⟨noServers, noName, noList, noSearch⟩ := base
  cases family with
  | v4 =>
    simp only [addDHCPDNSOptions, addExpectedDHCPDNSOptions, read]
    rw [agree_put (by simp [lookup_put, noList]) (by simp [lookup_put, noList]),
      agree_put (by simp [lookup_put, noName]) (by simp [lookup_put, noName]),
      agree_put noServers noServers, servers, domains_agree_v4 dhcp.searchDomains]
    grind
  | v6 =>
    simp only [addDHCPDNSOptions, addExpectedDHCPDNSOptions, read]
    rw [agree_put (by simp [lookup_put, noSearch]) (by simp [lookup_put, noSearch]),
      agree_put noServers noServers, servers, dhcpv6SearchDomains,
      domains_agree_v6 dhcp.searchDomains dhcp.domainName]
    grind

end Rows

/-- Rows that an audit cannot tell apart. -/
def SameRow (written audited : DHCPOptionsRow) : Prop :=
  written.cidr = audited.cidr ∧ ∀ key, written.options.lookup key = audited.options.lookup key

/-- The row that is written for an endpoint is the one that the audit expects exactly if the
texts on the switch keep the servers and the search domains. -/
theorem dhcpOptions_sameRow_iff (sha256 : Sha256) (subnet : Subnet)
    (accepted : subnet.validate = .ok ()) (enabled : subnet.dhcp.enabled = true)
    (endpoint : Endpoint) (family : Family) (holds : family.holds endpoint.ip = true) :
    ∃ row, desiredEndpointDHCPOptions endpoint (logicalSwitchExternalIDs subnet)
        (some (deterministicMAC sha256 subnet)) family = .ok (some row) ∧
      (SameRow row (expectedEndpointDHCPOptionsColumns sha256 subnet family) ↔
        PlainServers family subnet.dhcp.dnsServers ∧
          PlainDomains family subnet.dhcp.searchDomains) := by
  refine ⟨_, desiredEndpointDHCPOptions_eq sha256 accepted enabled holds, ?_⟩
  rw [← options_agree_iff sha256 family accepted enabled, SameRow,
    expectedEndpointDHCPOptionsColumns_eq]
  exact and_iff_right rfl

/-- A subnet with two servers and a search domain. -/
def labSubnet : Subnet where
  name := "lab"
  vpc := "shop"
  cidr := .v6 ⟨0xfd000000000000000000000000000000, 64, by decide⟩
  gateway := .v6 0xfd000000000000000000000000000001 ""
  dhcp := {
    enabled := true
    mtu := 1400
    dnsServers := [.v6 0xfd000000000000000000000000000035 "",
      .v6 0xfe800000000000000000000000000035 "eth0"]
    domainName := "shop.local"
    searchDomains := ["apps.local"] }

def labEndpoint : Endpoint :=
  ⟨"a", "shop", "lab", .v6 0xfd000000000000000000000000000005 "", "", "node1", [], [], ∅⟩

/-- The same subnet with its search domain given twice. -/
def labRepeated : Subnet :=
  { labSubnet with dhcp := { labSubnet.dhcp with searchDomains := ["apps.local", "apps.local"] } }

theorem dhcpOptions_sameRow_iff_lab :
    labSubnet.validate = .ok () ∧ labSubnet.dhcp.enabled = true ∧
      ∃ row, desiredEndpointDHCPOptions labEndpoint (logicalSwitchExternalIDs labSubnet)
          (some (deterministicMAC (fun _ => []) labSubnet)) .v6 = .ok (some row) ∧
        SameRow row (expectedEndpointDHCPOptionsColumns (fun _ => []) labSubnet .v6) := by
  have accepted : labSubnet.validate = .ok () := by decide +kernel
  obtain ⟨row, written, agree⟩ := dhcpOptions_sameRow_iff (fun _ => []) labSubnet accepted rfl
    labEndpoint .v6 rfl
  refine ⟨accepted, rfl, row, written, agree.mpr ⟨?_, ?_, ?_⟩⟩
  · intro server member
    revert server
    decide +kernel
  · decide +kernel
  · intro _
    decide

/-- A repeated search domain is written twice and audited once. -/
theorem dhcpOptions_repeatedDomain :
    labRepeated.validate = .ok () ∧ labRepeated.dhcp.enabled = true ∧
      ∃ row, desiredEndpointDHCPOptions labEndpoint (logicalSwitchExternalIDs labRepeated)
          (some (deterministicMAC (fun _ => []) labRepeated)) .v6 = .ok (some row) ∧
        row.options.lookup "domain_search" = some "apps.local,apps.local,shop.local" ∧
        (expectedEndpointDHCPOptionsColumns (fun _ => []) labRepeated .v6).options.lookup
          "domain_search" = some "apps.local,shop.local" := by
  refine ⟨by decide +kernel, rfl, _, desiredEndpointDHCPOptions_eq _ (by decide +kernel) rfl rfl,
    by decide +kernel, by decide +kernel⟩

end Netloom.Ovn
