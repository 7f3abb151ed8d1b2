import KosSim.Library.HttpMessage
import KosSim.VaultHttp
import Mathlib.Data.List.Sort

/-!
The proxy of VaultGrid in front of its sidecars. A request to /api/crypt or /api/feed is written
anew from what parse_request made of it: the parameters were decoded by then, and they are put
behind the path as they are.
-/

namespace KosSim.VaultProxy
open Library Library.Json Library.HttpMessage VaultHttp

/-! The source. -/

structure Sidecar where
  host : Bytes
  port : Nat
  visible : ∀ c ∈ host, Visible c

/-- What http_request writes to the socket. -/
def httpRequest (method : Bytes) (sidecar : Sidecar) (path body : Bytes)
    (headers : List (Bytes × Bytes)) : Bytes :=
  method ++ utf8 " " ++ path ++ utf8 " HTTP/1.1\r\n" ++ utf8 "host: " ++ sidecar.host ++ utf8 ":" ++
    digitBytes sidecar.port ++ utf8 "\r\n" ++ utf8 "connection: close\r\n" ++
    (if body ≠ [] then utf8 "content-length: " ++ digitBytes body.length ++ utf8 "\r\n" else []) ++
    headers.flatMap (fun header => header.1 ++ utf8 ": " ++ header.2 ++ utf8 "\r\n") ++ utf8 "\r\n" ++ body

/-- A std::map goes through its keys in order. -/
def inKeyOrder (map : Dict Bytes Bytes) : List (Bytes × Bytes) :=
  map.entries.insertionSort fun one other => one.1 ≤ other.1

def proxyTo (sidecar : Sidecar) (req : HttpRequest) : Bytes :=
  let path := if req.query.entries = [] then req.path
    else req.path ++ utf8 "?" ++
    (utf8 "&").intercalate ((inKeyOrder req.query).map fun entry => entry.1 ++ utf8 "=" ++ entry.2)
  let headers := match req.headers.get? (utf8 "content-type") with
    | some type => [(utf8 "content-type", type)]
    | none => []
  httpRequest req.method sidecar path req.body headers

def splitPath (path : Bytes) : List Bytes := (path.splitOn 47).filter fun part => part ≠ []

/-- The sidecar of route_request, if the path has one. -/
def sidecarOf (crypt feed : Sidecar) (path : Bytes) : Option Sidecar :=
  if (splitPath path).take 2 = [utf8 "api", utf8 "crypt"] then some crypt
  else if (splitPath path).take 2 = [utf8 "api", utf8 "feed"] then some feed
  else none

/-- What is sent to a sidecar for the bytes of a client. -/
def forwarded (crypt feed : Sidecar) (raw : Bytes) : Option Bytes :=
  let req := parseRequest raw
  (sidecarOf crypt feed req.path).map fun sidecar => proxyTo sidecar req

/-! Clients. -/

/-- A parameter, and the percent-encoded text of it. -/
structure Param where
  name : Bytes
  value : Bytes
  rawName : Bytes
  rawValue : Bytes
  nameText : ∀ c ∈ rawName, (queryByte c = true ∨ c = 37) ∧ c ≠ 38 ∧ c ≠ 61
  valueText : ∀ c ∈ rawValue, (queryByte c = true ∨ c = 37) ∧ c ≠ 38
  nameRead : formDecode rawName = some name
  valueRead : formDecode rawValue = some value

def Param.written (param : Param) : Bytes := plainField (param.rawName, param.rawValue)

structure Client where
  request : Request
  path : Bytes
  params : List Param
  target : request.target = path ++ if params =
    [] then [] else 63 :: [38].intercalate (params.map Param.written)
  routed : utf8 "/api/crypt/" <+: path ∨ utf8 "/api/feed/" <+: path
  pathText : ∀ c ∈ path, pathByte c = true ∨ c = 37
  pathRead : (formDecode path).isSome
  methodText : ∀ c ∈ request.method, tokenByte c = true
  distinct : (params.map Param.name).Nodup
  oneType : (request.headers.filter fun header => header.1.map tolower = utf8 "content-type").length ≤ 1

namespace Client
variable (client : Client)

def fields : List (Bytes × Bytes) := client.params.map fun param => (param.name, param.value)

def contentType : Option Bytes := header (readAs client.request.headers) (utf8 "content-type")

end Client

/-- The client's request is what the sidecar reads. -/
def Transparent (client : Client) (sent : Bytes) : Prop :=
  ∃ m, readMessage sent = some m ∧ m.method = client.request.method ∧ m.path = client.path ∧
    m.fields.Perm client.fields ∧ header m.headers (utf8 "content-type") = client.contentType ∧
    m.body = client.request.body

/-! The parsed request. -/

theorem strtol_digits {a b : UInt8} {m n : Nat} (high : hexValue a = some m) (low : hexValue b = some n) :
    strtol16 [a, b] = some ((16 * m + n : Nat) : Int) := by
  have text : [a, b].takeWhile (fun c => decide (c ≠ 0)) = [a, b] := by
    refine List.takeWhile_eq_self_iff.mpr fun c member => decide_eq_true ?_
    rcases List.mem_cons.mp member with rfl | last
    · exact hex_digit_apart high (by decide)
    · rw [List.mem_singleton.mp last]
      exact hex_digit_apart low (by decide)
  have noSpace : VaultJson.isspace a = false :=
    VaultJson.isspace_above
      (Nat.le_trans (by decide) (hex_digit_low (by rw [high]; rfl : (hexValue a).isSome = true)))
  have start : [a, b].dropWhile VaultJson.isspace = [a, b] :=
    List.dropWhile_cons_of_neg (by rw [noSpace]; decide)
  have noMinus : ¬[a, b].head? = some 45 :=
    fun same => hex_digit_apart high (by decide) (Option.some.inj same)
  have noPlus : ¬[a, b].head? = some 43 :=
    fun same => hex_digit_apart high (by decide) (Option.some.inj same)
  have digits : [a, b].mapM hexValue = some [m, n] := by
    rw [List.mapM_cons, high, List.mapM_cons, low]
    rfl
  rw [strtol16, text]
  dsimp only
  rw [start, if_neg (List.cons_ne_nil _ _), if_neg fun sign => sign.elim noMinus noPlus, digits]
  dsimp only
  rw [if_neg noMinus]
  simp only [List.foldl_cons, List.foldl_nil, Nat.mul_zero, Nat.zero_add]

theorem url_decode_plain {c : UInt8} (percent : c ≠ 37) (rest : Bytes) :
    urlDecode (c :: rest) = unplus c :: urlDecode rest := by
  match rest with
  | [] => rfl
  | [_] => rfl
  | d :: e :: rest => rw [urlDecode, if_neg percent]

theorem url_decode_read {raw out : Bytes} (read : formDecode raw = some out) : urlDecode raw = out := by
  induction raw using formDecode.induct generalizing out with
  | case1 a b rest m n later tail low high ih =>
      rw [formDecode, high, low, tail] at read
      have one := hex_value_small high
      have other := hex_value_small low
      have small : ((16 * m + n : Nat) : Int) % 256 = ((16 * m + n : Nat) : Int) := by omega
      rw [urlDecode, if_pos rfl, strtol_digits high low]
      dsimp only
      rw [ih tail, small, Int.toNat_natCast]
      exact Option.some.inj read
  | case2 a b rest broken =>
      rw [formDecode] at read
      split at read
      · next m n later high low tail => exact absurd tail (broken m n later high low)
      · cases read
  | case3 rest short =>
      rw [formDecode, if_pos rfl] at read
      · cases read
      · exact short
  | case4 c rest noEscape percent ih =>
      rw [formDecode, if_neg percent] at read
      · obtain ⟨later, tail, rfl⟩ := Option.map_eq_some_iff.mp read
        rw [url_decode_plain percent, ih tail]
        rfl
      · exact noEscape
  | case5 => exact Option.some.inj read

theorem written_no_ampersand (param : Param) : (38 : UInt8) ∉ param.written := by
  rw [Param.written, plainField, List.mem_append, List.mem_cons]
  rintro (name | equals | value)
  · exact (param.nameText 38 name).2.1 rfl
  · cases equals
  · exact (param.valueText 38 value).2 rfl

theorem query_loop_params {params : List Param} {fuel : Nat} {table : Dict Bytes Bytes}
    (enough : ([38].intercalate (params.map Param.written)).length ≤ fuel) :
    queryLoop fuel ([38].intercalate (params.map Param.written)) table =
      Dict.setAll (params.map fun param => (param.name, param.value)) table := by
  have filled (param : Param) : param.written ≠ [] :=
    List.append_ne_nil_of_right_ne_nil _ (List.cons_ne_nil _ _)
  have item (param : Param) : (cutAt [61] param.written).getD (param.written, []) =
      (param.rawName, param.rawValue) := by
    rw [Param.written, plainField, cut_mark fun member => (param.nameText 61 member).2.2 rfl]
    rfl
  have step {more : Nat} {param : Param} {rest : Bytes} {stream : Bytes}
      (line : getline 38 stream = some (param.written, rest)) (table : Dict Bytes Bytes) :
      queryLoop (more + 1) stream table = queryLoop more rest (table.set param.name param.value) := by
    rw [queryLoop, line]
    dsimp only
    rw [item param]
    dsimp only
    rw [url_decode_read param.nameRead, url_decode_read param.valueRead]
  have ended (fuel : Nat) (table : Dict Bytes Bytes) : queryLoop fuel [] table = table := by
    cases fuel <;> rfl
  induction params generalizing fuel table with
  | nil => exact ended fuel table
  | cons param rest ih =>
      cases rest with
      | nil =>
          rw [List.map_singleton, List.intercalate_singleton] at enough ⊢
          obtain ⟨more, rfl⟩ : ∃ more, fuel = more + 1 :=
            Nat.exists_eq_succ_of_ne_zero (by have := List.length_pos_of_ne_nil (filled param); omega)
          have line : getline 38 param.written = some (param.written, []) := by
            rw [getline, if_neg (filled param), cut_none_mark (written_no_ampersand param)]
            rfl
          rw [step line, ended]
          rfl
      | cons second others =>
          rw [List.map_cons, List.map_cons, List.intercalate_cons_cons, ← List.map_cons,
            List.append_assoc] at enough ⊢
          rw [List.length_append, List.length_append, List.length_singleton] at enough
          obtain ⟨more, rfl⟩ : ∃ more, fuel = more + 1 := Nat.exists_eq_succ_of_ne_zero (by omega)
          have line : getline 38 (param.written ++
              ([38] ++ [38].intercalate ((second :: others).map Param.written))) =
              some (param.written, [38].intercalate ((second :: others).map Param.written)) := by
            have present : param.written ++
                ([38] ++ [38].intercalate ((second :: others).map Param.written)) ≠ [] :=
              List.append_ne_nil_of_left_ne_nil (filled param) _
            rw [getline, if_neg present]
            exact congrArg (fun cut => some (Option.getD cut _)) (cut_mark (written_no_ampersand param) _)
          rw [step line, ih (by omega)]
          rfl

section Parsed
variable (client : Client)

theorem path_no_mark : (63 : UInt8) ∉ client.path := by
  intro member
  rcases client.pathText 63 member with plain | escape
  · exact absurd plain (by decide)
  · cases escape

theorem client_path : client.request.path = client.path := by
  have free : client.path.takeWhile (fun c => decide (c ≠ 63)) = client.path :=
    List.takeWhile_eq_self_iff.mpr fun c member => decide_eq_true fun same =>
      path_no_mark client (same ▸ member)
  rw [Request.path, client.target, List.takeWhile_append, free, if_pos rfl]
  by_cases none_ : client.params = []
  · rw [if_pos none_, List.takeWhile_nil, List.append_nil]
  · rw [if_neg none_, List.takeWhile_cons_of_neg (by decide), List.append_nil]

theorem client_query : client.request.query.entries.Perm client.fields := by
  by_cases none_ : client.params = []
  · have target : client.request.target = client.path := by
      rw [client.target, if_pos none_, List.append_nil]
    rw [Request.query, target, cut_none_mark (path_no_mark client), Client.fields, none_]
    exact List.Perm.refl _
  · have target : client.request.target = client.path ++
        63 :: [38].intercalate (client.params.map Param.written) := by
      rw [client.target, if_neg none_]
    have keys : (client.params.map fun param => (param.name, param.value)).map Prod.fst =
        client.params.map Param.name := by
      rw [List.map_map]
      rfl
    rw [Request.query, target, cut_mark (path_no_mark client)]
    dsimp only
    rw [query_loop_params (Nat.le_refl _)]
    exact Dict.of_list_perm (by rw [keys]; exact client.distinct)

/-- The blanks of a header's value are the ones that trim takes away. -/
theorem trim_value {value : Bytes} (text : ∀ c ∈ value, Visible c ∨ c = 32 ∨ c = 9) :
    trim value = trimBlanks value := by
  have same (list : Bytes) (within : ∀ c ∈ list, c ∈ value) :
      list.dropWhile VaultJson.isspace = list.dropWhile blank := by
    induction list with
    | nil => rfl
    | cons c rest ih =>
        have agree : VaultJson.isspace c = blank c := by
          rcases text c (within c List.mem_cons_self) with visible | rfl | rfl
          · rw [(visible_apart visible).2.2]
            refine (Bool.or_eq_false_iff.mpr ⟨decide_eq_false ?_, decide_eq_false ?_⟩).symm
            · rintro rfl
              exact absurd visible (by decide)
            · rintro rfl
              exact absurd visible (by decide)
          · rfl
          · rfl
        rw [List.dropWhile_cons, List.dropWhile_cons, agree,
          ih fun other member => within other (List.mem_cons_of_mem _ member)]
  have start := same value fun c member => member
  rw [trim, trimBlanks, start, same]
  intro c member
  exact (List.dropWhile_sublist _).subset (List.mem_reverse.mp member)

theorem header_table_read : client.request.headerTable = Dict.ofList (readAs client.request.headers) := by
  have pairs : readAs client.request.headers =
      client.request.headers.map fun header => (header.1.map tolower, trim header.2) := by
    refine List.map_congr_left fun header member => ?_
    rw [trim_value (client.request.values header member)]
    rfl
  rw [pairs, Request.headerTable, Dict.ofList, Dict.setAll, List.foldl_map]

theorem client_content_type :
    client.request.headerTable.get? (utf8 "content-type") = client.contentType := by
  rw [header_table_read, Dict.of_list_find, Client.contentType, header]
  have once := client.oneType
  rw [readAs, List.filter_map, List.length_map]
  exact once

theorem client_parsed : parseRequest client.request.bytes =
    ⟨client.request.method, client.path, client.request.query, client.request.headerTable,
      client.request.body⟩ := by
  rw [bytes_head, parse_well_formed, client_path]

/-- What is sent for the parsed request. -/
theorem client_sent (sidecar : Sidecar) : ∃ sorted : List (Bytes × Bytes), sorted.Perm client.fields ∧
    proxyTo sidecar (parseRequest client.request.bytes) =
      httpRequest client.request.method sidecar
        (client.path ++ if sorted = [] then [] else 63 :: plainForm sorted) client.request.body
        (client.contentType.toList.map fun type => (utf8 "content-type", type)) := by
  have sorted : (inKeyOrder client.request.query).Perm client.request.query.entries :=
    List.perm_insertionSort _ _
  refine ⟨inKeyOrder client.request.query, sorted.trans (client_query client), ?_⟩
  rw [client_parsed, proxyTo]
  dsimp only
  rw [client_content_type]
  have types : (match client.contentType with
      | some type => [(utf8 "content-type", type)]
      | none => []) = client.contentType.toList.map fun type => (utf8 "content-type", type) := by
    cases client.contentType <;> rfl
  rw [types]
  by_cases none_ : client.request.query.entries = []
  · rw [if_pos none_, if_pos (by rw [inKeyOrder, none_]; rfl), List.append_nil]
  · have filled : inKeyOrder client.request.query ≠ [] :=
      fun empty => none_ (List.nil_perm.mp (empty ▸ sorted))
    rw [if_neg none_, if_neg filled, plainForm, List.append_assoc]
    have fields : (inKeyOrder client.request.query).map (fun entry => entry.1 ++ utf8 "=" ++ entry.2) =
        (inKeyOrder client.request.query).map plainField :=
      List.map_congr_left fun entry _ => List.append_assoc _ _ _
    rw [fields]
    rfl

end Parsed

/-! The bytes that are sent. -/

def lengthHeader (body : Bytes) : List (Bytes × Bytes) :=
  if body ≠ [] then [(utf8 "content-length", digitBytes body.length)] else []

def sentHeaders (sidecar : Sidecar) (body : Bytes) (type : Option Bytes) : List (Bytes × Bytes) :=
  (utf8 "host", sidecar.host ++ 58 :: digitBytes sidecar.port) :: (utf8 "connection", utf8 "close") ::
    (lengthHeader body ++ type.toList.map fun type => (utf8 "content-type", type))

theorem http_request_text (method : Bytes) (sidecar : Sidecar) (path body : Bytes)
    (type : Option Bytes) :
    httpRequest method sidecar path body (type.toList.map fun type => (utf8 "content-type", type)) =
      method ++ 32 :: (path ++ 32 :: utf8 "HTTP/1.1") ++
        (lineEnd ++ (((sentHeaders sidecar body type).map headerText).flatMap (· ++ lineEnd) ++
          (lineEnd ++ body))) := by
  have first : utf8 " HTTP/1.1\r\n" = 32 :: utf8 "HTTP/1.1" ++ lineEnd := rfl
  have close : utf8 "connection: close\r\n" = headerText (utf8 "connection", utf8 "close") ++ lineEnd := rfl
  have more (headers : List (Bytes × Bytes)) :
      headers.flatMap (fun header => header.1 ++ utf8 ": " ++ header.2 ++ utf8 "\r\n") =
        (headers.map headerText).flatMap (· ++ lineEnd) := by
    rw [List.flatMap_map]
    refine List.flatMap_congr fun header _ => ?_
    rw [headerText, List.append_assoc header.1]
    rfl
  have length : (if body ≠ [] then utf8 "content-length: " ++ digitBytes body.length ++
      utf8 "\r\n" else []) = ((lengthHeader body).map headerText).flatMap (· ++ lineEnd) := by
    rw [lengthHeader]
    by_cases filled : body ≠ []
    · rw [if_pos filled, if_pos filled, List.map_singleton, List.flatMap_singleton]
      rfl
    · rw [if_neg filled, if_neg filled]
      rfl
  rw [httpRequest, more, length, first, close, sentHeaders, List.map_cons, List.map_cons, List.flatMap_cons,
    List.flatMap_cons, List.map_append, List.flatMap_append]
  simp only [headerText, List.append_assoc, List.cons_append]
  rfl

theorem visible_field {c : UInt8} (visible : Visible c) : fieldByte c = true ∧ blank c = false := by
  constructor
  · rw [fieldByte, Bool.or_eq_true, Bool.and_eq_true, decide_eq_true_eq, decide_eq_true_eq]
    exact .inl ⟨UInt8.le_trans (by decide) visible.1, visible.2⟩
  · refine Bool.or_eq_false_iff.mpr ⟨decide_eq_false ?_, decide_eq_false ?_⟩
    · rintro rfl
      exact absurd visible (by decide)
    · rintro rfl
      exact absurd visible (by decide)

theorem digit_shown {c : UInt8} (digit : isDigit c = true) : Visible c := by
  rw [isDigit, Bool.and_eq_true, decide_eq_true_eq, decide_eq_true_eq] at digit
  refine ⟨UInt8.le_trans (by decide) digit.1, ?_⟩
  rintro rfl
  exact absurd digit.2 (by decide)

section Headers
variable (sidecar : Sidecar) (client : Client)

theorem content_type_text {type : Bytes} (stated : client.contentType = some type) :
    (∀ c ∈ type, fieldByte c = true) ∧ trimBlanks type = type := by
  rw [Client.contentType, header] at stated
  obtain ⟨entry, found, rfl⟩ := Option.map_eq_some_iff.mp stated
  obtain ⟨original, member, rfl⟩ := List.mem_map.mp (List.mem_of_find?_eq_some found)
  refine ⟨fun c inside => ?_, trim_blanks_twice original.2⟩
  have within : c ∈ original.2 :=
    (List.dropWhile_sublist _).subset
      (List.mem_reverse.mp ((List.dropWhile_sublist _).subset (List.mem_reverse.mp inside)))
  rcases client.request.values original member c within with visible | rfl | rfl
  · exact (visible_field visible).1
  · rfl
  · rfl

theorem sent_header_texts :
    ∀ header ∈ sentHeaders sidecar client.request.body client.contentType, HeaderText header := by
  intro header member
  rw [sentHeaders, List.mem_cons, List.mem_cons, List.mem_append] at member
  rcases member with rfl | rfl | length | type
  · refine ⟨show utf8 "host" ≠ [] by decide, show ∀ c ∈ utf8 "host", tokenByte c = true by decide,
      fun c inside => ?_⟩
    rcases List.mem_append.mp inside with host | port
    · exact (visible_field (sidecar.visible c host)).1
    · rcases List.mem_cons.mp port with rfl | digit
      · rfl
      · exact (visible_field (digit_shown ((digit_bytes _).2.1 c digit))).1
  · exact ⟨by decide, by decide, by decide⟩
  · rw [lengthHeader] at length
    split at length
    · rw [List.mem_singleton.mp length]
      exact ⟨show utf8 "content-length" ≠ [] by decide, show ∀ c ∈ utf8 "content-length",
        tokenByte c =
          true by decide, fun c digit => (visible_field (digit_shown ((digit_bytes _).2.1 c digit))).1⟩
    · cases length
  · obtain ⟨type, stated, rfl⟩ := List.mem_map.mp type
    exact ⟨show utf8 "content-type" ≠ [] by decide, show ∀ c ∈ utf8 "content-type",
      tokenByte c = true by decide, (content_type_text client (Option.mem_toList.mp stated)).1⟩

theorem sent_body : readBody (readAs (sentHeaders sidecar client.request.body client.contentType))
    client.request.body = some client.request.body := by
  have others :
      header (readAs (client.contentType.toList.map fun type => (utf8 "content-type", type)))
      (utf8 "content-length") = none := by
    cases client.contentType <;> rfl
  by_cases filled : client.request.body = []
  · have none_ : header (readAs (sentHeaders sidecar client.request.body client.contentType))
        (utf8 "content-length") = none := by
      rw [sentHeaders, lengthHeader, if_neg (not_not.mpr filled)]
      exact others
    rw [readBody, none_, filled]
  · obtain ⟨some_, digits, value⟩ := digit_bytes client.request.body.length
    have stated : header (readAs (sentHeaders sidecar client.request.body client.contentType))
        (utf8 "content-length") = some (digitBytes client.request.body.length) := by
      have plain := trim_plain fun c member => (visible_field (digit_shown (digits c member))).2
      rw [sentHeaders, lengthHeader, if_pos filled]
      exact congrArg some plain
    rw [readBody, stated]
    dsimp only
    rw [value, if_pos ⟨some_, List.all_eq_true.mpr digits, Nat.le_refl _⟩, List.take_length]

theorem sent_type :
    header (readAs (sentHeaders sidecar client.request.body client.contentType)) (utf8 "content-type") =
      client.contentType := by
  have last : header
      (readAs (client.contentType.toList.map fun type => (utf8 "content-type", type)))
      (utf8 "content-type") = client.contentType := by
    cases stated : client.contentType with
    | none => rfl
    | some type => exact congrArg some (content_type_text client stated).2
  rw [sentHeaders, lengthHeader]
  split
  · exact last
  · exact last

end Headers

/-! What the sidecar reads. -/

/-- Every character stands for itself in a query, and none of them is read as something else. -/
def Plain (param : Param) : Prop :=
  (∀ c ∈ param.name ++ param.value, queryByte c = true ∧ c ≠ 38 ∧ c ≠ 43) ∧ (61 : UInt8) ∉ param.name

section Target
variable (client : Client)

theorem path_bytes {c : UInt8} (member : c ∈ client.path) : c ≠ 32 ∧ c ≠ 13 := by
  have plain := client.pathText c member
  constructor
  · rintro rfl
    exact absurd plain (by decide)
  · rintro rfl
    exact absurd plain (by decide)

theorem path_head : client.path.head? = some 47 := by
  rcases client.routed with ⟨rest, whole⟩ | ⟨rest, whole⟩
  · rw [← whole]
    rfl
  · rw [← whole]
    rfl

theorem path_whole (query : Bytes) :
    (cutAt [63] (client.path ++ 63 :: query)).getD (client.path ++ 63 :: query, []) =
      (client.path, query) := by
  rw [cut_mark (path_no_mark client)]
  rfl

theorem read_target_query (query : Bytes) : readTarget (client.path ++ 63 :: query) =
    if (query.all fun c => queryByte c || c = 37) then (formFields query).map fun fields =>
    (client.path, fields) else none := by
  have path : (client.path.all fun c => pathByte c || decide (c = 37)) = true :=
    List.all_eq_true.mpr fun c member => by
      rw [Bool.or_eq_true, decide_eq_true_eq]
      exact client.pathText c member
  have start : (client.path ++ 63 :: query).head? = some 47 := by rw [List.head?_append, path_head]; rfl
  rw [readTarget, path_whole]
  dsimp only
  by_cases text : (query.all fun c => queryByte c || decide (c = 37)) = true
  · rw [if_pos text, if_pos ⟨start, path, client.pathRead, text⟩]
  · rw [if_neg text, if_neg fun all => text all.2.2.2]

theorem read_target_path : readTarget client.path = some (client.path, []) := by
  have path : (client.path.all fun c => pathByte c || decide (c = 37)) = true :=
    List.all_eq_true.mpr fun c member => by
      rw [Bool.or_eq_true, decide_eq_true_eq]
      exact client.pathText c member
  rw [readTarget, cut_none_mark (path_no_mark client)]
  exact if_pos ⟨path_head client, path, client.pathRead, rfl⟩

end Target

theorem plain_iff (params : List Param) (sorted : List (Bytes × Bytes))
    (same : sorted.Perm (params.map fun param => (param.name, param.value))) :
    (∀ param ∈ params, Plain param) ↔
      (∀ c ∈ texts sorted, queryByte c = true ∧ c ≠ 38 ∧ c ≠ 43) ∧
      ∀ field ∈ sorted, (61 : UInt8) ∉ field.1 := by
  constructor
  · intro plain
    constructor
    · intro c member
      obtain ⟨field, inside, held⟩ := List.mem_flatMap.mp member
      obtain ⟨param, listed, rfl⟩ := List.mem_map.mp (same.mem_iff.mp inside)
      exact (plain param listed).1 c held
    · intro field inside
      obtain ⟨param, listed, rfl⟩ := List.mem_map.mp (same.mem_iff.mp inside)
      exact (plain param listed).2
  · rintro ⟨signs, names⟩ param listed
    have inside : (param.name, param.value) ∈ sorted := same.mem_iff.mpr (List.mem_map_of_mem listed)
    exact ⟨fun c held => signs c (List.mem_flatMap.mpr ⟨_, inside, held⟩), names _ inside⟩

section Query
variable {client : Client} {sorted : List (Bytes × Bytes)}

theorem plain_read (signs : ∀ c ∈ texts sorted, queryByte c = true ∧ c ≠ 38 ∧ c ≠ 43)
    (names : ∀ field ∈ sorted, (61 : UInt8) ∉ field.1) :
    readTarget (client.path ++ 63 :: plainForm sorted) = some (client.path, sorted) ∧
      ∀ c ∈ plainForm sorted, c ≠ 32 ∧ c ≠ 13 := by
  have shown : ∀ c ∈ plainForm sorted, queryByte c = true := by
    intro c member
    rcases plain_form_mem member with rfl | rfl | held
    · rfl
    · rfl
    · exact (signs c held).1
  have text : ((plainForm sorted).all fun c => queryByte c || decide (c = 37)) = true :=
    List.all_eq_true.mpr fun c member => by rw [shown c member, Bool.true_or]
  have noPercent : (37 : UInt8) ∉ texts sorted := fun member => absurd (signs 37 member).1 (by decide)
  have read := plain_form_read
    ⟨fun member => (signs 38 member).2.1 rfl, noPercent, fun member => (signs 43 member).2.2 rfl⟩ names
  refine ⟨?_, fun c member => ⟨?_, ?_⟩⟩
  · rw [read_target_query, if_pos text, read]
    rfl
  · rintro rfl
    exact absurd (shown 32 member) (by decide)
  · rintro rfl
    exact absurd (shown 13 member) (by decide)

/-- A query that the sidecar reads up to the first blank gives the fields only if there is none, and
no other sign that is read as something else. -/
theorem read_plain_query {m : Message} (same : m.fields.Perm sorted)
    (read : readTarget ((client.path ++ 63 :: plainForm sorted).takeWhile fun c => decide (c ≠ 32)) =
      some (m.path, m.fields)) :
    (∀ c ∈ texts sorted, queryByte c = true ∧ c ≠ 38 ∧ c ≠ 43) ∧
      ∀ field ∈ sorted, (61 : UInt8) ∉ field.1 := by
  have path : client.path.takeWhile (fun c => decide (c ≠ 32)) = client.path :=
    List.takeWhile_eq_self_iff.mpr fun c member => decide_eq_true (path_bytes client member).1
  rw [List.takeWhile_append, path, if_pos rfl, List.takeWhile_cons_of_pos (by decide),
    read_target_query] at read
  split at read
  · next text =>
    obtain ⟨fields, found, parts⟩ := Option.map_eq_some_iff.mp read
    rw [(Prod.mk.inj parts).2] at found
    have noBlank : (32 : UInt8) ∉ (plainForm sorted).takeWhile fun c => decide (c ≠ 32) := fun member =>
      absurd (List.mem_takeWhile_imp (p := fun c : UInt8 => decide (c ≠ 32)) member) (by decide)
    obtain ⟨plus, ampersand, space⟩ :=
      plain_form_signs (List.takeWhile_prefix _) noBlank found same
    have whole : (plainForm sorted).takeWhile (fun c => decide (c ≠ 32)) = plainForm sorted := by
      refine List.takeWhile_eq_self_iff.mpr fun c member => decide_eq_true ?_
      rintro rfl
      rcases plain_form_mem member with mark | mark | held
      · cases mark
      · cases mark
      · exact space held
    rw [whole] at found text
    have percent := plain_form_percent ampersand found same
    refine ⟨fun c held => ⟨?_, ?_, ?_⟩, plain_form_names ⟨ampersand, percent, plus⟩ found same⟩
    · rcases texts_in_form held with member | rfl | rfl
      · have shown := List.all_eq_true.mp text c member
        rw [Bool.or_eq_true, decide_eq_true_eq] at shown
        exact shown.resolve_right fun escape => percent (escape ▸ held)
      · rfl
      · rfl
    · rintro rfl
      exact ampersand held
    · rintro rfl
      exact plus held
  · cases read

end Query

theorem transparent_iff (client : Client) (sidecar : Sidecar) :
    Transparent client (proxyTo sidecar (parseRequest client.request.bytes)) ↔
      ∀ param ∈ client.params, Plain param := by
  obtain ⟨sorted, same, sent⟩ := client_sent client sidecar
  rw [plain_iff client.params sorted same, sent, http_request_text]
  constructor
  · rintro ⟨m, read, -, -, fields, -, -⟩
    by_cases none_ : sorted = []
    · rw [none_]
      exact ⟨nofun, nofun⟩
    · rw [if_neg none_, List.append_assoc, List.cons_append, List.append_assoc, List.cons_append] at read
      have noBlank : (32 : UInt8) ∉ client.request.method := fun member =>
        (token_bytes (client.methodText 32 member)).2.1 rfl
      exact read_plain_query (fields.trans same.symm) (read_message_target noBlank read)
  · rintro ⟨signs, names⟩
    have parts : ∃ target, client.path ++ (if sorted = [] then [] else 63 :: plainForm sorted) = target ∧
        readTarget target = some (client.path, sorted) ∧ ∀ c ∈ target, c ≠ 32 ∧ c ≠ 13 := by
      refine ⟨_, rfl, ?_⟩
      by_cases none_ : sorted = []
      · rw [if_pos none_, List.append_nil, none_]
        exact ⟨read_target_path client, fun c member => path_bytes client member⟩
      · obtain ⟨read, query⟩ := plain_read signs names
        rw [if_neg none_]
        refine ⟨read, fun c member => ?_⟩
        rcases List.mem_append.mp member with path | mark
        · exact path_bytes client path
        · rcases List.mem_cons.mp mark with rfl | inside
          · exact ⟨by decide, by decide⟩
          · exact query c inside
    obtain ⟨target, whole, read, free⟩ := parts
    rw [whole]
    refine ⟨_, read_written client.request.methodFilled client.methodText
      (fun member => (free 32 member).1 rfl) (fun member => (free 13 member).2 rfl)
      (sent_header_texts sidecar client) read
      (sent_body sidecar client), rfl, rfl, same, sent_type sidecar client, rfl⟩

/-! The routes. -/

theorem split_routed (service rest : Bytes) (filled : service ≠ []) (free : (47 : UInt8) ∉ service) :
    (splitPath (47 :: (utf8 "api" ++ 47 :: (service ++ 47 :: rest)))).take 2 = [utf8 "api", service] := by
  have root : (47 :: (utf8 "api" ++ 47 :: (service ++ 47 :: rest)) : Bytes).splitOn 47 =
      [] :: utf8 "api" :: service :: rest.splitOn 47 := by
    have api : (47 : UInt8) ∉ utf8 "api" := by decide
    rw [← List.nil_append (47 :: _), List.splitOn_append_cons_self_of_not_mem List.not_mem_nil,
      List.splitOn_append_cons_self_of_not_mem api, List.splitOn_append_cons_self_of_not_mem free]
  rw [splitPath, root, List.filter_cons_of_neg (by decide), List.filter_cons_of_pos (by decide),
    List.filter_cons_of_pos (by simpa using filled)]
  rfl

theorem client_routed (crypt feed : Sidecar) (client : Client) :
    ∃ sidecar, sidecarOf crypt feed client.path = some sidecar := by
  rcases client.routed with ⟨rest, whole⟩ | ⟨rest, whole⟩
  · have parts : (splitPath client.path).take 2 = [utf8 "api", utf8 "crypt"] := by
      rw [← whole]
      exact split_routed (utf8 "crypt") rest (by decide) (by decide)
    exact ⟨crypt, by rw [sidecarOf, if_pos parts]⟩
  · have parts : (splitPath client.path).take 2 = [utf8 "api", utf8 "feed"] := by
      rw [← whole]
      exact split_routed (utf8 "feed") rest (by decide) (by decide)
    have other : ¬[utf8 "api", utf8 "feed"] = [utf8 "api", utf8 "crypt"] := by decide
    exact ⟨feed, by rw [sidecarOf, parts, if_neg other, if_pos rfl]⟩

/-- The requests that go through the proxy unchanged: the ones whose parameters need no escapes. -/
theorem forwarded_transparent_iff (crypt feed : Sidecar) (client : Client) :
    (∃ sent, forwarded crypt feed client.request.bytes = some sent ∧ Transparent client sent) ↔
      ∀ param ∈ client.params, Plain param := by
  obtain ⟨sidecar, chosen⟩ := client_routed crypt feed client
  have sent : forwarded crypt feed client.request.bytes =
      some (proxyTo sidecar (parseRequest client.request.bytes)) := by
    rw [forwarded, client_parsed]
    dsimp only
    rw [chosen]
    rfl
  rw [← transparent_iff client sidecar, sent]
  constructor
  · rintro ⟨bytes, same, transparent⟩
    rwa [Option.some.inj same]
  · exact fun transparent => ⟨_, rfl, transparent⟩

def localSidecar (port : Nat) : Sidecar := ⟨utf8 "127.0.0.1", port, by decide⟩

/-- GET /api/feed/read?name=a%26b HTTP/1.1, a name with an ampersand in it. -/
def ampersandClient : Client where
  request := bareGet (utf8 "/api/feed/read?name=a%26b") (by decide) (by decide)
  path := utf8 "/api/feed/read"
  params := [⟨utf8 "name", utf8 "a&b", utf8 "name", utf8 "a%26b", by decide, by decide, by decide,
    by decide⟩]
  target := rfl
  routed := .inr ⟨utf8 "read", rfl⟩
  pathText := by decide
  pathRead := by decide
  methodText := by decide
  distinct := by decide
  oneType := by decide

/-- The sidecar gets two parameters for the one. -/
theorem ampersand_splits :
    ¬∃ sent, forwarded (localSidecar 4102) (localSidecar 4103) ampersandClient.request.bytes = some sent ∧
      Transparent ampersandClient sent := by
  have chosen : sidecarOf (localSidecar 4102) (localSidecar 4103) ampersandClient.path =
      some (localSidecar 4103) := rfl
  rintro ⟨sent, same, transparent⟩
  rw [forwarded, client_parsed] at same
  dsimp only at same
  rw [chosen, ← client_parsed] at same
  rw [← Option.some.inj same, transparent_iff] at transparent
  exact ((transparent _ List.mem_cons_self).1 38 (by decide)).2.1 rfl

end KosSim.VaultProxy
