import TaggedRows.Accessor.Tokens
import TaggedRows.Proofs.RuntimePath.Arguments

/-!
# Reading accessors back

What the tokens of a block of accessors mean is found out from the tokens alone: `Reader.block?`
reads them, knowing only how the types of the runtime are spelled. Types, receivers and parameters
are read off the signature, and the body according to what it has to give back.

- **Parts** (`params?_commas`, `result?_resultTokens`, `body?_bodyTokens`): each reader gives back
  what was written, and stops behind it.
- **Blocks** (`Reader.block?_tokens`): the block of a mapping is read as its accessors, for the
  type with the path of the mapping.
-/

namespace TaggedRows

open Token (op kw str)

namespace Accessor.Reader

/-! ## Readers -/

/-- The tokens after the given beginning. -/
def after? : List Token → List Token → Option (List Token)
  | [], ts => some ts
  | p :: ps, t :: ts => if p = t then after? ps ts else none
  | _ :: _, [] => none

variable (runtime : RuntimePath)

/-- How an accessor gets its object. -/
def receiver : List Token → Receiver × List Token
  | .punct '&' _ :: .word ⟨false, "self"⟩ :: ts => (.shared, ts)
  | .punct '&' _ :: .word ⟨false, "mut"⟩ :: .word ⟨false, "self"⟩ :: ts => (.exclusive, ts)
  | ts => (.none, ts)

def paramType? (ts : List Token) : Option (ParamType × List Token) :=
  match after? (paramTypeTokens runtime .time) ts, ts with
  | some rest, _ => some (.time, rest)
  | none, .word ⟨false, "i64"⟩ :: rest => some (.id, rest)
  | none, _ => none

/-- The parameters up to the closing parenthesis, which is taken. -/
def params? : Nat → List Token → Option (List Param × List Token)
  | _, .closing .paren :: ts => some ([], ts)
  | fuel + 1, .punct ',' _ :: ts => params? fuel ts
  | fuel + 1, .word ⟨false, name⟩ :: .punct ':' _ :: ts =>
    (paramType? runtime ts).bind fun (type, ts) =>
      (params? fuel ts).map fun (params, ts) => (⟨name, type⟩ :: params, ts)
  | _, _ => none

/-- The result; without an arrow there is none. -/
def result? (ts : List Token) : Option (ResultType × List Token) :=
  match ts with
  | .punct '-' _ :: .punct '>' _ :: _ =>
    [.object, .texts, .text, .id, .values, .slots].findSome? fun type =>
      (after? (resultTokens runtime type) ts).map (type, ·)
  | _ => some (.nothing, ts)

/-- The texts up to the closing bracket, which is taken. -/
def texts? : List Token → Option (List String × List Token)
  | .closing .bracket :: ts => some ([], ts)
  | .punct ',' _ :: ts => texts? ts
  | .literal ⟨.string s, _⟩ :: ts => (texts? ts).map fun (ss, ts) => (s :: ss, ts)
  | _ => none

/-- A field of the object. -/
def member? : List Token → Option (Ident × List Token)
  | .word ⟨false, "self"⟩ :: .punct '.' _ :: .word field :: ts => some (field, ts)
  | _ => none

/-- Fields up to the closing bracket, which is taken, with the given tokens around each. -/
def members? (front back : List Token) : Nat → List Token → Option (List Ident × List Token)
  | _, .closing .bracket :: ts => some ([], ts)
  | fuel + 1, .punct ',' _ :: ts => members? front back fuel ts
  | fuel + 1, ts =>
    (after? front ts).bind fun ts => (member? ts).bind fun (field, ts) =>
      (after? back ts).bind fun ts =>
        (members? front back fuel ts).map fun (fields, ts) => (field :: fields, ts)
  | _, _ => none

/-- A parameter, as it is or converted, up to the semicolon, which is taken. -/
def assigned? : List Token → Option (String × Bool × List Token)
  | .word ⟨false, param⟩ :: .punct ';' _ :: ts => some (param, false, ts)
  | ts =>
    (after? (Token.rootPath ["core", "convert", "From", "from"]) ts).bind fun
      | .opening .paren :: .word ⟨false, param⟩ :: .closing .paren :: .punct ';' _ :: ts =>
        some (param, true, ts)
      | _ => none

/-- Assignments up to the closing brace, which is left. -/
def assignments? : Nat → List Token → Option (List Assignment × List Token)
  | _, .closing .brace :: ts => some ([], .closing .brace :: ts)
  | fuel + 1, ts =>
    (member? ts).bind fun
      | (field, .punct '=' _ :: ts) =>
        (assigned? ts).bind fun (param, isConverted, ts) =>
          (assignments? fuel ts).map fun (rest, ts) => (⟨field, param, isConverted⟩ :: rest, ts)
      | _ => none
  | _, _ => none

/-- A body, according to what it gives back. -/
def body? (result : ResultType) (ts : List Token) : Option (Body × List Token) :=
  match result, ts with
  | .object, ts =>
    (after? (op "<" ++ [kw "Self", kw "as"] ++ Token.rootPath ["core", "default", "Default"] ++
      op ">" ++ op "::" ++ [kw "default", .opening .paren, .closing .paren]) ts).map (.fresh, ·)
  | .texts, .punct '&' _ :: .opening .bracket :: ts =>
    (texts? ts).map fun (ss, ts) => (.texts ss, ts)
  | .text, .literal ⟨.string s, _⟩ :: ts => some (.text s, ts)
  | .id, .literal ⟨.number, "0"⟩ :: ts => some (.zero, ts)
  | .id, ts => (member? ts).map fun (field, ts) => (.read field, ts)
  | .values, ts =>
    (after? (Token.rootPath ["std", "vec"] ++ op "!" ++ [.opening .bracket]) ts).bind fun ts =>
      (members? (op "&") (kw "as" :: valueType runtime) ts.length ts).map fun (fields, ts) =>
        (.values fields, ts)
  | .slots, ts =>
    (after? (Token.rootPath ["std", "vec"] ++ op "!" ++ [.opening .bracket]) ts).bind fun ts =>
      (members? (op "&" ++ [kw "mut"]) (kw "as" :: slotType runtime) ts.length ts).map
        fun (fields, ts) => (.slots fields, ts)
  | .nothing, ts =>
    (assignments? ts.length ts).map fun (assignments, ts) => (.assign assignments, ts)
  | _, _ => none

/-- One accessor. -/
def accessor? : List Token → Option (Accessor × List Token)
  | .word ⟨false, "fn"⟩ :: .word ⟨false, name⟩ :: .opening .paren :: ts =>
    let (receiver, ts) := receiver ts
    (params? runtime ts.length ts).bind fun (params, ts) =>
      (result? runtime ts).bind fun
        | (result, .opening .brace :: ts) =>
          (body? runtime result ts).bind fun
            | (body, .closing .brace :: ts) => some (⟨name, receiver, params, result, body⟩, ts)
            | _ => none
        | _ => none
  | _ => none

/-- The accessors up to the closing brace, which ends the block. -/
def accessors? : Nat → List Token → Option (List Accessor)
  | _, [.closing .brace] => some []
  | fuel + 1, ts => (accessor? runtime ts).bind fun (a, ts) => (accessors? fuel ts).map (a :: ·)
  | _, _ => none

/-- A path up to the opening brace, which is taken. -/
def path? : List Token → Option (List Ident × List Token)
  | .word id :: .opening .brace :: ts => some ([id], ts)
  | .word id :: .punct ':' true :: .punct ':' _ :: ts =>
    (path? ts).map fun (ids, ts) => (id :: ids, ts)
  | _ => none

/-- The path of the type of a block, and its accessors. -/
def block? (ts : List Token) : Option (List Ident × List Accessor) :=
  (after? (kw "impl" :: (runtime.tokensOf ["DbObject"] ++ [kw "for"])) ts).bind fun ts =>
    (path? ts).bind fun (path, ts) => (accessors? runtime ts.length ts).map (path, ·)

/-! ## Types and parameters -/

theorem after?_append_append (ps qs ts : List Token) :
    after? (ps ++ qs) (ps ++ ts) = after? qs ts := by
  induction ps with
  | nil => rfl
  | cons p ps ih => simp [after?, ih]

theorem after?_append (ps ts : List Token) : after? ps (ps ++ ts) = some ts := by
  simpa [after?] using after?_append_append ps [] ts

/-- The tokens do not go on with a path or with generic arguments. -/
def EndsType (ts : List Token) : Prop :=
  ∀ joint, ts.head? ≠ some (.punct ':' joint) ∧ ts.head? ≠ some (.punct '<' joint)

variable {runtime}

/-- The word of a key type is not taken for the path of the type of times. -/
theorem after?_time_key (h : runtime.HasArguments) {ts : List Token} (hts : EndsType ts) :
    after? (paramTypeTokens runtime .time) (kw "i64" :: ts) = none := by
  unfold paramTypeTokens
  obtain ⟨more, ht⟩ | ⟨id, t, more, ht, joint, hj⟩ :=
    RuntimePath.tokensOf_continues h "chrono" ["DateTime"]
  · simp [ht, after?, kw]
  · by_cases hid : id = .plain "i64"
    · cases ts with
      | nil => simp [ht, hid, after?, kw]
      | cons u us =>
        have hu : t ≠ u := by
          rintro rfl
          rcases hj with rfl | rfl
          · exact (hts joint).1 rfl
          · exact (hts joint).2 rfl
        simp [ht, hid, after?, kw, hu]
    · simp [ht, after?, kw, hid]

theorem paramType?_tokens (h : runtime.HasArguments) (type : ParamType) {ts : List Token}
    (hts : EndsType ts) :
    paramType? runtime (paramTypeTokens runtime type ++ ts) = some (type, ts) := by
  unfold paramType?
  cases type with
  | time => rw [after?_append]
  | id =>
    have hn := after?_time_key h hts
    simp only [paramTypeTokens, List.cons_append, List.nil_append] at hn ⊢
    rw [hn]
    rfl

/-- One parameter and then the others. -/
theorem params?_param (h : runtime.HasArguments) (p : Param) (fuel : Nat) {ts : List Token}
    (hts : EndsType ts) : params? runtime (fuel + 1) (paramTokens runtime p ++ ts) =
      (params? runtime fuel ts).map fun (params, ts) => (p :: params, ts) := by
  have hp : paramTokens runtime p ++ ts =
      .word ⟨false, p.name⟩ :: .punct ':' false :: (paramTypeTokens runtime p.type ++ ts) := by
    simp [paramTokens, kw, Ident.plain, op, op.go]
  rw [hp]
  simp only [params?, paramType?_tokens h p.type hts, Option.bind_some]

theorem params?_closing (fuel : Nat) (ts : List Token) :
    params? runtime fuel (.closing .paren :: ts) = some ([], ts) := by
  cases fuel <;> rfl

/-- The parameters, with a comma behind the last one or without. -/
theorem params?_commas (h : runtime.HasArguments) {last : List Token}
    (hlast : last = [] ∨ last = op ",") (params : List Param) (fuel : Nat) (ts : List Token)
    (hfuel : (Token.commas (params.map (paramTokens runtime)) ++ last).length ≤ fuel) :
    params? runtime fuel
      (Token.commas (params.map (paramTokens runtime)) ++ (last ++ .closing .paren :: ts)) =
        some (params, ts) := by
  have hcomma : ∀ fuel us, params? runtime (fuel + 1) (op "," ++ us) = params? runtime fuel us :=
    fun fuel us => rfl
  have hend : EndsType (last ++ .closing .paren :: ts) := by
    intro joint
    rcases hlast with rfl | rfl <;> simp [op, op.go]
  have hnil : ∀ fuel, last.length ≤ fuel →
      params? runtime fuel (last ++ .closing .paren :: ts) = some ([], ts) := by
    intro fuel hf
    rcases hlast with rfl | rfl
    · exact params?_closing fuel ts
    · obtain ⟨fuel, rfl⟩ : ∃ k, fuel = k + 1 := ⟨fuel - 1, by simp [op, op.go] at hf; omega⟩
      rw [hcomma]
      exact params?_closing fuel ts
  induction params generalizing fuel with
  | nil => exact hnil fuel (by simpa [Token.commas] using hfuel)
  | cons p params ih =>
    obtain ⟨fuel, rfl⟩ : ∃ k, fuel = k + 1 := by
      refine ⟨fuel - 1, ?_⟩
      have hl : 0 < (paramTokens runtime p).length := by simp [paramTokens]
      cases params <;> simp [Token.commas] at hfuel <;> omega
    cases params with
    | nil =>
      simp only [List.map_cons, List.map_nil, Token.commas] at hfuel ⊢
      rw [params?_param h p fuel hend, hnil fuel ?_]
      · rfl
      · simp [paramTokens] at hfuel
        omega
    | cons q params =>
      simp only [List.map_cons, Token.commas, List.append_assoc] at hfuel ⊢
      rw [params?_param h p fuel (fun joint => by simp [op, op.go])]
      simp only [List.length_append] at hfuel
      have hl : 1 < (paramTokens runtime p).length := by simp [paramTokens, op, op.go]
      have hc : (op ",").length = 1 := rfl
      obtain ⟨fuel, rfl⟩ : ∃ k, fuel = k + 1 := ⟨fuel - 1, by omega⟩
      rw [hcomma]
      have := ih fuel (by simp only [List.map_cons, List.length_append]; omega)
      simp only [List.map_cons] at this
      rw [this]
      rfl

/-- What the receiver leaves are the parameters, behind a comma if both are there. -/
theorem receiver_paramsTokens (a : Accessor) (ts : List Token) :
    receiver (paramsTokens runtime a ++ .closing .paren :: ts) = (a.receiver,
      (if a.receiver = .none ∨ a.params = [] then [] else op ",") ++
        (Token.commas (a.params.map (paramTokens runtime)) ++
          ((if 1 < a.params.length then op "," else []) ++ .closing .paren :: ts))) := by
  unfold paramsTokens
  generalize hl : (if 1 < a.params.length then op "," else []) = last
  cases hr : a.receiver <;> cases hp : a.params with
  | nil => simp [receiverTokens, Token.commas, receiver, op, op.go, kw, Ident.plain, hp, ← hl]
  | cons p ps =>
    cases ps <;>
      simp [receiverTokens, Token.commas, receiver, op, op.go, kw, Ident.plain, paramTokens]

/-- The parameters are read behind the receiver. -/
theorem params?_paramsTokens (h : runtime.HasArguments) (a : Accessor) (ts : List Token) :
    ∃ us, receiver (paramsTokens runtime a ++ .closing .paren :: ts) = (a.receiver, us) ∧
      params? runtime us.length us = some (a.params, ts) := by
  refine ⟨_, receiver_paramsTokens a ts, ?_⟩
  have hlast : (if 1 < a.params.length then op "," else []) = [] ∨
      (if 1 < a.params.length then op "," else []) = op "," := by
    by_cases h1 : 1 < a.params.length <;> simp [h1]
  split
  · refine params?_commas h hlast a.params _ ts ?_
    simp only [List.nil_append, List.length_append]
    omega
  · have hc : ∀ fuel us, params? runtime (fuel + 1) (op "," ++ us) = params? runtime fuel us :=
      fun fuel us => rfl
    have hn : ∀ us : List Token, (op "," ++ us).length = us.length + 1 := fun us => by
      simp [op, op.go]
    rw [hn, hc]
    refine params?_commas h hlast a.params _ ts ?_
    simp only [List.length_append]
    omega

/-! ## Results and bodies -/

theorem result?_resultTokens (type : ResultType) (ts : List Token) :
    result? runtime (resultTokens runtime type ++ .opening .brace :: ts) =
      some (type, .opening .brace :: ts) := by
  cases type <;>
    simp [result?, resultTokens, op, op.go, kw, Ident.plain, Token.staticText, Token.within,
      Token.vecOf, Token.rootPath, valueType, slotType, after?, after?_append_append]

/-- The body gives back what the signature says. -/
def Fits : ResultType → Body → Prop
  | .object, .fresh => True
  | .texts, .texts _ => True
  | .text, .text _ => True
  | .id, .zero => True
  | .id, .read _ => True
  | .values, .values _ => True
  | .slots, .slots _ => True
  | .nothing, .assign _ => True
  | _, _ => False

theorem texts?_commas (ss : List String) (ts : List Token) :
    texts? (Token.commas (ss.map fun s => [str s]) ++ .closing .bracket :: ts) = some (ss, ts) := by
  induction ss with
  | nil => rfl
  | cons s ss ih =>
    cases ss with
    | nil => rfl
    | cons s' ss =>
      simp only [List.map_cons, Token.commas, List.append_assoc] at ih ⊢
      have ht : ∀ us, texts? (str s :: (op "," ++ us)) =
          (texts? us).map fun (ss, ts) => (s :: ss, ts) := fun us => rfl
      rw [List.cons_append, List.nil_append, ht, ih]
      rfl

theorem member?_fieldTokens (field : Ident) (ts : List Token) :
    member? (fieldTokens field ++ ts) = some (field, ts) := rfl

section

variable {front back : List Token}

/-- One reference and then the others. -/
theorem members?_member (field : Ident) (fuel : Nat) (ts : List Token) :
    members? (.punct '&' false :: front) back (fuel + 1)
      ((.punct '&' false :: front) ++ (fieldTokens field ++ (back ++ ts))) =
        (members? (.punct '&' false :: front) back fuel ts).map fun (fields, ts) =>
          (field :: fields, ts) := by
  have hstep : ∀ us, members? (.punct '&' false :: front) back (fuel + 1)
      ((.punct '&' false :: front) ++ us) =
        (after? (.punct '&' false :: front) ((.punct '&' false :: front) ++ us)).bind fun ts =>
          (member? ts).bind fun (field, ts) => (after? back ts).bind fun ts =>
            (members? (.punct '&' false :: front) back fuel ts).map fun (fields, ts) =>
              (field :: fields, ts) := fun us => rfl
  rw [hstep, after?_append]
  simp only [Option.bind_some, member?_fieldTokens, after?_append]

theorem members?_closing (fuel : Nat) (ts : List Token) :
    members? front back fuel (.closing .bracket :: ts) = some ([], ts) := by
  cases fuel <;> rfl

theorem members?_commas {item : Ident → List Token}
    (hitem : ∀ f, item f = (.punct '&' false :: front) ++ (fieldTokens f ++ back))
    (fields : List Ident) (fuel : Nat) (ts : List Token)
    (hfuel : (Token.commas (fields.map item)).length ≤ fuel) :
    members? (.punct '&' false :: front) back fuel
      (Token.commas (fields.map item) ++ .closing .bracket :: ts) = some (fields, ts) := by
  induction fields generalizing fuel with
  | nil => exact members?_closing fuel ts
  | cons f fields ih =>
    have hl : 3 < (item f).length := by simp [hitem f, fieldTokens, op, op.go]; omega
    obtain ⟨fuel, rfl⟩ : ∃ k, fuel = k + 1 := by
      refine ⟨fuel - 1, ?_⟩
      cases fields <;> simp [Token.commas] at hfuel <;> omega
    cases fields with
    | nil =>
      simp only [List.map_cons, List.map_nil, Token.commas, hitem, List.append_assoc]
      rw [members?_member, members?_closing]
      rfl
    | cons f' fields =>
      simp only [List.map_cons, Token.commas, List.append_assoc] at hfuel ih ⊢
      simp only [List.length_append] at hfuel
      rw [hitem f]
      simp only [List.append_assoc]
      rw [members?_member]
      have hc : (op ",").length = 1 := rfl
      obtain ⟨fuel, rfl⟩ : ∃ k, fuel = k + 1 := ⟨fuel - 1, by omega⟩
      have hcomma : ∀ us, members? (.punct '&' false :: front) back (fuel + 1) (op "," ++ us) =
          members? (.punct '&' false :: front) back fuel us := fun us => rfl
      rw [hcomma, ih fuel (by omega)]
      rfl

/-- A list of references is read behind the name of the macro that makes it. -/
theorem members?_vecArgs {item : Ident → List Token}
    (hitem : ∀ f, item f = (.punct '&' false :: front) ++ (fieldTokens f ++ back))
    (fields : List Ident) (ts : List Token) :
    ∃ us, after? (Token.rootPath ["std", "vec"] ++ op "!" ++ [.opening .bracket])
        (vecArgs (fields.map item) ++ ts) = some us ∧
      members? (.punct '&' false :: front) back us.length us = some (fields, ts) := by
  refine ⟨Token.commas (fields.map item) ++ .closing .bracket :: ts, ?_, ?_⟩
  · simp only [vecArgs, Token.within, List.append_assoc, List.cons_append, List.nil_append]
    simp only [after?_append_append, after?, if_true]
  · exact members?_commas hitem fields _ ts (by simp)

end

theorem assigned?_tokens (a : Assignment) (ts : List Token) :
    assigned? ((if a.isConverted then
        Token.rootPath ["core", "convert", "From", "from"] ++ Token.within .paren [kw a.param]
      else [kw a.param]) ++ (op ";" ++ ts)) = some (a.param, a.isConverted, ts) := by
  by_cases hc : a.isConverted = true
  · simp [hc, assigned?, Token.rootPath, op, op.go, kw, Ident.plain, Token.within, after?]
  · simp [hc, assigned?, op, op.go, kw, Ident.plain]

theorem assignments?_flatMap (as : List Assignment) (fuel : Nat) (ts : List Token)
    (hfuel : (as.flatMap assignmentTokens).length ≤ fuel) :
    assignments? fuel (as.flatMap assignmentTokens ++ .closing .brace :: ts) =
      some (as, .closing .brace :: ts) := by
  induction as generalizing fuel with
  | nil => cases fuel <;> rfl
  | cons a as ih =>
    simp only [List.flatMap_cons, List.length_append] at hfuel
    have hl : 0 < (assignmentTokens a).length := by simp [assignmentTokens, fieldTokens]
    obtain ⟨fuel, rfl⟩ : ∃ k, fuel = k + 1 := ⟨fuel - 1, by omega⟩
    simp only [List.flatMap_cons, assignmentTokens, List.append_assoc]
    have hstep : ∀ us, assignments? (fuel + 1) (fieldTokens a.field ++ (op "=" ++ us)) =
        (assigned? us).bind fun (param, isConverted, ts) =>
          (assignments? fuel ts).map fun (rest, ts) =>
            (⟨a.field, param, isConverted⟩ :: rest, ts) :=
      fun us => rfl
    have hr := ih fuel (by omega)
    rw [hstep, assigned?_tokens]
    simp only [Option.bind_some, hr, Option.map_some]

theorem body?_bodyTokens {result : ResultType} {body : Body} (h : Fits result body)
    (ts : List Token) : body? runtime result (bodyTokens runtime body ++ .closing .brace :: ts) =
      some (body, .closing .brace :: ts) := by
  cases result <;> cases body <;> try exact h.elim
  case object.fresh =>
    simp [body?, bodyTokens, op, op.go, kw, Ident.plain, Token.rootPath, Token.within, after?]
  case texts.texts ss =>
    have ht : ∀ us, body? runtime .texts (op "&" ++ (.opening .bracket :: us)) =
        (texts? us).map fun (ss, ts) => (.texts ss, ts) := fun us => rfl
    simp only [bodyTokens, Token.within, List.append_assoc, List.cons_append, List.nil_append]
    rw [ht, texts?_commas]
    rfl
  case text.text s => rfl
  case id.zero => rfl
  case id.read field => rfl
  case values.values fields =>
    have hi : ∀ f, valueTokens runtime f =
        (.punct '&' false :: []) ++ (fieldTokens f ++ (kw "as" :: valueType runtime)) := fun f => by
      simp [valueTokens, op, op.go]
    obtain ⟨us, ha, hm⟩ := members?_vecArgs hi fields (.closing .brace :: ts)
    simp only [body?, bodyTokens, ha, Option.bind_some]
    rw [show op "&" = .punct '&' false :: [] from rfl, hm]
    rfl
  case slots.slots fields =>
    have hi : ∀ f, slotTokens runtime f = (.punct '&' false :: [kw "mut"]) ++
        (fieldTokens f ++ (kw "as" :: slotType runtime)) := fun f => by
      simp [slotTokens, op, op.go]
    obtain ⟨us, ha, hm⟩ := members?_vecArgs hi fields (.closing .brace :: ts)
    simp only [body?, bodyTokens, ha, Option.bind_some]
    rw [show op "&" ++ [kw "mut"] = .punct '&' false :: [kw "mut"] from rfl, hm]
    rfl
  case nothing.assign as =>
    have ha : ∀ us, body? runtime .nothing us = (assignments? us.length us).map
        fun (assignments, ts) => (.assign assignments, ts) := fun us => rfl
    rw [ha, bodyTokens, assignments?_flatMap as _ ts (by simp)]
    rfl

/-! ## Blocks -/

theorem accessor?_tokens (h : runtime.HasArguments) {a : Accessor} (ha : Fits a.result a.body)
    (ts : List Token) : accessor? runtime (a.tokens runtime ++ ts) = some (a, ts) := by
  have ht : a.tokens runtime ++ ts =
      kw "fn" :: kw a.name :: .opening .paren :: (paramsTokens runtime a ++ .closing .paren ::
        (resultTokens runtime a.result ++ .opening .brace ::
          (bodyTokens runtime a.body ++ .closing .brace :: ts))) := by
    simp [Accessor.tokens, Token.within]
  obtain ⟨us, hr, hp⟩ := params?_paramsTokens h a (resultTokens runtime a.result ++
    .opening .brace :: (bodyTokens runtime a.body ++ .closing .brace :: ts))
  rw [ht]
  simp only [kw, Ident.plain, accessor?, hr, hp, Option.bind_some, result?_resultTokens,
    body?_bodyTokens ha]

theorem accessors?_flatMap (h : runtime.HasArguments) {as : List Accessor}
    (ha : ∀ a ∈ as, Fits a.result a.body) (fuel : Nat)
    (hfuel : (as.flatMap (Accessor.tokens runtime)).length ≤ fuel) :
    accessors? runtime fuel (as.flatMap (Accessor.tokens runtime) ++ [.closing .brace]) =
      some as := by
  induction as generalizing fuel with
  | nil => cases fuel <;> rfl
  | cons a as ih =>
    simp only [List.flatMap_cons, List.length_append] at hfuel
    have hl : 0 < (a.tokens runtime).length := by simp [Accessor.tokens]
    obtain ⟨fuel, rfl⟩ : ∃ k, fuel = k + 1 := ⟨fuel - 1, by omega⟩
    have hr := ih (fun b hb => ha b (List.mem_cons_of_mem _ hb)) fuel (by omega)
    have hstep : ∀ us, accessors? runtime (fuel + 1) (a.tokens runtime ++ us) =
        (accessor? runtime (a.tokens runtime ++ us)).bind fun (a, ts) =>
          (accessors? runtime fuel ts).map (a :: ·) := fun us => rfl
    simp only [List.flatMap_cons, List.append_assoc]
    rw [hstep, accessor?_tokens h (ha a (List.mem_cons_self ..))]
    simp only [Option.bind_some, hr, Option.map_some]

theorem path?_path {ids : List Ident} (h : ids ≠ []) (ts : List Token) :
    path? (Token.path ids ++ .opening .brace :: ts) = some (ids, ts) := by
  induction ids with
  | nil => exact absurd rfl h
  | cons id ids ih =>
    cases ids with
    | nil => rfl
    | cons id' ids =>
      have hstep : ∀ us, path? (.word id :: (op "::" ++ us)) =
          (path? us).map fun (ids, ts) => (id :: ids, ts) := fun us => rfl
      simp only [Token.path, List.cons_append, List.append_assoc]
      rw [hstep, ih (by simp)]
      rfl

/-- Every accessor gives back what its signature says. -/
theorem fits_accessors (m : RowMapping) : ∀ a ∈ m.accessors, Fits a.result a.body := by
  have hk : Fits m.keyAccessor.result m.keyAccessor.body := by
    unfold RowMapping.keyAccessor
    cases m.key <;> trivial
  have hs : Fits m.setIdAccessor.result m.setIdAccessor.body := by
    unfold RowMapping.setIdAccessor
    cases m.key <;> trivial
  intro a ha
  simp only [RowMapping.accessors, List.mem_cons, List.not_mem_nil, or_false] at ha
  rcases ha with rfl | rfl | rfl | rfl | rfl | rfl | rfl | rfl | rfl | rfl | rfl | rfl | rfl | rfl
  all_goals first | exact hk | exact hs | trivial

/-- The block of a mapping is read as what it was written from. -/
theorem block?_tokens (h : runtime.HasArguments) (m : RowMapping) :
    block? runtime (m.tokens runtime) = some (m.typePath, m.accessors) := by
  have ht : m.tokens runtime = (kw "impl" :: (runtime.tokensOf ["DbObject"] ++ [kw "for"])) ++
      (Token.path m.typePath ++ .opening .brace ::
        (m.accessors.flatMap (Accessor.tokens runtime) ++ [.closing .brace])) := by
    simp [RowMapping.tokens, Token.within]
  have hp : m.typePath ≠ [] := by simp [RowMapping.typePath]
  rw [ht, block?, after?_append]
  simp only [Option.bind_some, path?_path hp]
  rw [accessors?_flatMap h (fits_accessors m) _ (by simp)]
  rfl

end Accessor.Reader

end TaggedRows
