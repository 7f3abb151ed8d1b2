import KosSim.PolicyRoutes

/-!
The signed tokens of PolicyForge: what is signed is read back, and a token that is accepted is its
body's text and tag.
-/

namespace KosSim.PolicyForge
open Library Library.Base64 Library.Handler
open PolicyDsl (Text CaseMap Rule)

variable {env : Env}

theorem body_free (body : Bytes) : '.' ∉ urlEncode body :=
  fun member => (url_encode_digits body '.' member).2 rfl

theorem open_sign (body : Bytes) : openToken env (some (signBody env body)) = some body := by
  rw [openToken, Option.getD_some, signBody, cut_mark (body_free body)]
  dsimp only
  rw [if_pos rfl, url_decode_encode]

theorem sign_dot (body : Bytes) : '.' ∈ signBody env body := List.mem_append_right _ List.mem_cons_self

/-- What the service has signed opens to what it has signed. -/
theorem open_signed {token : Text} {body signed : Bytes} (opened : openToken env (some token) = some body)
    (same : token = signBody env signed) : body = signed := by
  rw [same, open_sign] at opened
  exact (Option.some.inj opened).symm

def guestSession (now : Int) : Session := ⟨guest, ["reader".toList], now + 86400⟩

theorem guest_token (now : Int) :
    guestToken env now = signBody env (env.jason.encode (guestSession now)) :=
  rfl

theorem verify_guest {issued now : Int} (fresh : now ≤ issued + 86400) :
    verifySession env (some (guestToken env issued)) now = some (guestSession issued) := by
  rw [verifySession, guest_token, open_sign, Option.bind_some, env.jason.readBack]
  exact if_pos fresh

theorem verify_share (snap : Text) : verifyShare env (issueShare env snap) = some (bytesOf snap) :=
  open_sign _

theorem name_back (snap : Text) :
    String.fromUTF8? (bytesOf snap).toByteArray = some (String.ofList snap) :=
  from_utf8_utf8 _

/-- The public snapshot is always shared. -/
theorem issue_sound {system : System State Act} {contract : Contract system}
    (held : ∀ state, contract.keeps state → Held env state.mem) (state : State) :
    (serveIssue env publicSnapshot).Sound contract
      (fun answer _ => answer = .shareToken (issueShare env publicSnapshot)) state := by
  refine sound_ask_bind fun one _ kept => ?_
  have all : (allPublic [publicObject]).Sound contract (fun all _ => all = true) one := by
    refine sound_ask_bind fun other _ later => ?_
    rw [(held other later).seed]
    exact rfl
  rw [(held one kept).seedSnap]
  refine sound_bind all fun fine _ _ yes_ => ?_
  rw [yes_]
  exact rfl

/-! Sessions as JSON, with the members in the order of their names. -/

def sessionJson (session : Session) : Json :=
  .object [("exp", .number (Json.intNumber session.exp)),
    ("groups", .array (session.groups.map fun group => .string (String.ofList group))),
    ("user", .string (String.ofList session.user))]

def textOf : Json → Option Text
  | .string text => some text.toList
  | _ => none

def sessionOf : Json → Option Session
  | .object [("exp", .number exp), ("groups", .array groups), ("user", .string user)] => do
      let exp ← Json.intOf exp.text
      let groups ← groups.mapM textOf
      return ⟨user.toList, groups, exp⟩
  | _ => none

theorem groups_back (groups : List Text) :
    (groups.map fun group => Json.string (String.ofList group)).mapM textOf = some groups := by
  induction groups with
  | nil => rfl
  | cons group rest ih =>
      rw [List.map_cons, List.mapM_cons, ih]
      show some ((String.ofList group).toList :: rest) = _
      rw [String.toList_ofList]

def jsonSessions : Jason where
  encode session := (sessionJson session).encode
  decode body := (Json.parse body).bind sessionOf
  readBack session := by
    show (Json.parse (sessionJson session).encode).bind sessionOf = some session
    rw [Json.parse_encode, Option.bind_some]
    simp only [sessionJson, sessionOf, Json.intNumber, Json.int_of_text, groups_back, String.toList_ofList]
    rfl
  opens session := by
    show (sessionJson session).encode.head? = _
    simp only [sessionJson, Json.encode]
    rfl
  noName := by decide

end KosSim.PolicyForge
