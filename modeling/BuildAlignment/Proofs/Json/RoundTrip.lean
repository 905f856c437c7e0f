import BuildAlignment.Json.Printer
import BuildAlignment.Json.Reader
import BuildAlignment.Proofs.Json.Escape

/-!
# Printed values are read back

What is printed is cut into the tokens of the value, and the tokens are put together to the value.

* `Json.Writable` holds of the values that have a written form.
* `Json.tokens` are the tokens of a value. By `Json.Writable.scanned` they are found in its printed
  form, at any level and in front of anything that a bare token does not run into.
* `Json.Writable.joined`: the tokens of a value are put together to the value.
* `Json.read?_printed`: a printed value is read back.
-/

namespace BuildAlignment.Json

/-- The numbers of a value are numbers, and no part of it is garbled. -/
inductive Writable : Json → Prop
  | null : Writable .null
  | bool (value : Bool) : Writable (.bool value)
  | number {digits : List Char} (written : isNumber digits = true) : Writable (.number digits)
  | text (value : String) : Writable (.text value)
  | list {items : List Json} (each : ∀ item ∈ items, Writable item) : Writable (.list items)
  | object {members : List (String × Json)} (each : ∀ member ∈ members, Writable member.2) :
      Writable (.object members)

/-! ### Tokens of values -/

mutual

def tokens : Json → List Token
  | null => [.bare "null".toList]
  | bool true => [.bare "true".toList]
  | bool false => [.bare "false".toList]
  | number digits => [.bare digits]
  | text value => [.quoted (encode value.toList)]
  | garbled => [.quoted []]
  | list [] => [.openList, .closeList]
  | list (item :: items) => .openList :: (tokens item ++ itemTokens items ++ [.closeList])
  | object [] => [.openObject, .closeObject]
  | object ((name, value) :: members) =>
    .openObject :: .quoted (encode name.toList) :: .colon ::
      (tokens value ++ memberTokens members ++ [.closeObject])

def itemTokens : List Json → List Token
  | [] => []
  | item :: items => .comma :: (tokens item ++ itemTokens items)

def memberTokens : List (String × Json) → List Token
  | [] => []
  | (name, value) :: members =>
    .comma :: .quoted (encode name.toList) :: .colon :: (tokens value ++ memberTokens members)

end

/-! ### Bare characters -/

/-- A text that a bare token in front of it does not run into. -/
def Ends (rest : List Char) : Prop :=
  ∀ c ∈ rest.head?, Token.isBareChar c = false

theorem ends_cons {c : Char} (h : Token.isBareChar c = false) (rest : List Char) :
    Ends (c :: rest) := by
  intro d hd
  cases hd
  exact h

theorem ends_newLine (level : Nat) (rest : List Char) : Ends (newLine level ++ rest) :=
  ends_cons (by decide) _

theorem ends_printedItems (level : Nat) (items : List Json) {rest : List Char} (h : Ends rest) :
    Ends (printedItems level items ++ rest) := by
  cases items with
  | nil => exact h
  | cons item items => exact ends_cons (by decide) _

theorem ends_printedMembers (level : Nat) (members : List (String × Json)) {rest : List Char}
    (h : Ends rest) : Ends (printedMembers level members ++ rest) := by
  cases members with
  | nil => exact h
  | cons member members => exact ends_cons (by decide) _

def AllBare (cs : List Char) : Prop :=
  ∀ c ∈ cs, Token.isBareChar c = true

instance (cs : List Char) : Decidable (AllBare cs) :=
  decidable_of_iff (cs.all Token.isBareChar = true) List.all_eq_true

theorem isBareChar_of_isDigit {c : Char} (h : Text.isDigit c = true) :
    Token.isBareChar c = true := by
  simp [Token.isBareChar, h]

theorem allBare_of_digits {cs : List Char} (h : cs.all Text.isDigit = true) : AllBare cs :=
  fun c hc => isBareChar_of_isDigit (List.all_eq_true.1 h c hc)

theorem AllBare.cons {c : Char} {cs : List Char} (hc : Token.isBareChar c = true)
    (h : AllBare cs) : AllBare (c :: cs) := by
  intro d hd
  rcases List.mem_cons.1 hd with rfl | hmem
  · exact hc
  · exact h d hmem

theorem allBare_of_isExponent {cs : List Char} (h : isExponent cs = true) : AllBare cs := by
  have hdigits : ∀ {ds : List Char}, isDigits ds = true → AllBare ds := by
    intro ds hds
    simp only [isDigits, Bool.and_eq_true] at hds
    exact allBare_of_digits hds.2
  cases cs with
  | nil => simp [AllBare]
  | cons e rest =>
    simp only [isExponent, Bool.and_eq_true, Bool.or_eq_true, beq_iff_eq] at h
    obtain ⟨hmark, hrest⟩ := h
    have he : Token.isBareChar e = true := by rcases hmark with rfl | rfl <;> decide
    split at hrest
    · exact .cons he (.cons (by decide) (hdigits hrest))
    · exact .cons he (.cons (by decide) (hdigits hrest))
    · exact .cons he (hdigits hrest)

/-- What stands behind some digits may be bare too. -/
theorem allBare_of_dropWhile {cs : List Char} (h : AllBare (cs.dropWhile Text.isDigit)) :
    AllBare cs := by
  intro c hc
  rw [← List.takeWhile_append_dropWhile (p := Text.isDigit) (l := cs)] at hc
  rcases List.mem_append.1 hc with htaken | hleft
  · exact allBare_of_digits List.all_takeWhile c htaken
  · exact h c hleft

theorem allBare_of_isFraction {cs : List Char} (h : isFraction cs = true) : AllBare cs := by
  unfold isFraction at h
  split at h
  · simp only [Bool.and_eq_true] at h
    exact .cons (by decide) (allBare_of_dropWhile (allBare_of_isExponent h.2))
  · exact allBare_of_isExponent h

theorem allBare_of_isNumber {cs : List Char} (h : isNumber cs = true) : AllBare cs := by
  have hunsigned : ∀ {ds : List Char}, isUnsigned ds = true → AllBare ds := by
    intro ds hds
    unfold isUnsigned at hds
    split at hds
    · exact .cons (by decide) (allBare_of_isFraction hds)
    · simp only [Bool.and_eq_true] at hds
      exact allBare_of_dropWhile (allBare_of_isFraction hds.2)
  unfold isNumber at h
  split at h
  · exact .cons (by decide) (hunsigned h)
  · exact hunsigned h

/-! ### Scanning -/

namespace Token

variable {done : List Token} {rest : List Char}

/-- A mark is a token by itself. -/
theorem scanFrom?_mark {c : Char} {token : Token} (h : start? c = some ([token], .between)) :
    scanFrom? .between done (c :: rest) = scanFrom? .between (token :: done) rest := by
  simp only [scanFrom?, h]
  rfl

theorem scanFrom?_blank {c : Char} (h : start? c = some ([], .between)) :
    scanFrom? .between done (c :: rest) = scanFrom? .between done rest := by
  simp only [scanFrom?, h]
  rfl

theorem scanFrom?_newLine (level : Nat) :
    scanFrom? .between done (newLine level ++ rest) = scanFrom? .between done rest := by
  have hblanks : ∀ count, scanFrom? .between done (List.replicate count ' ' ++ rest)
      = scanFrom? .between done rest := by
    intro count
    induction count with
    | zero => rfl
    | succ count ih => rw [List.replicate_succ, List.cons_append, scanFrom?_blank rfl, ih]
  rw [newLine, List.cons_append, scanFrom?_blank rfl, hblanks]

theorem scanFrom?_quoted (value : String) :
    scanFrom? .between done (Json.quoted value ++ rest)
      = scanFrom? .between (quoted (encode value.toList) :: done) rest := by
  rw [Json.quoted, List.cons_append, List.append_assoc]
  exact scan_encode _

theorem scanFrom?_name (name : String) :
    scanFrom? .between done (Json.quoted name ++ ':' :: ' ' :: rest)
      = scanFrom? .between (colon :: quoted (encode name.toList) :: done) rest := by
  rw [scanFrom?_quoted, scanFrom?_mark rfl, scanFrom?_blank rfl]

theorem start?_of_isBareChar {c : Char} (h : isBareChar c = true) :
    start? c = some ([], .bare [c]) := by
  unfold start?
  split
  case h_12 => rw [if_pos h]
  all_goals exact absurd h (by decide)

theorem scanFrom?_bare {cs : List Char} (hne : cs ≠ []) (hbare : AllBare cs) (hends : Ends rest) :
    scanFrom? .between done (cs ++ rest) = scanFrom? .between (bare cs :: done) rest := by
  have hrun : ∀ (cs read : List Char), AllBare cs → scanFrom? (.bare read) done (cs ++ rest)
      = scanFrom? .between (bare (read.reverse ++ cs) :: done) rest := by
    intro cs
    induction cs with
    | nil =>
      intro read _
      rw [List.nil_append, List.append_nil]
      cases rest with
      | nil => rfl
      | cons next rest =>
        have hnext : ¬ isBareChar next = true := by
          rw [hends next rfl]
          exact Bool.false_ne_true
        simp only [scanFrom?, if_neg hnext]
    | cons d cs ih =>
      intro read hall
      rw [List.cons_append, scanFrom?, if_pos (hall d List.mem_cons_self),
        ih _ fun other hother => hall other (List.mem_cons_of_mem _ hother), List.reverse_cons,
        List.append_assoc]
      rfl
  obtain ⟨c, cs, rfl⟩ := List.exists_cons_of_ne_nil hne
  simp only [List.cons_append, scanFrom?, start?_of_isBareChar (hbare c List.mem_cons_self)]
  exact hrun cs [c] fun other hother => hbare other (List.mem_cons_of_mem _ hother)

end Token

open Token (scanFrom?)

/-- A scan finds the tokens of the value in its printed form. -/
def Scanned (value : Json) : Prop :=
  ∀ (level : Nat) (done : List Token) (rest : List Char), Ends rest →
    scanFrom? .between done (printed level value ++ rest)
      = scanFrom? .between ((tokens value).reverse ++ done) rest

theorem scan_printedItems {items : List Json} (each : ∀ item ∈ items, Scanned item) (level : Nat)
    (done : List Token) {rest : List Char} (hrest : Ends rest) :
    scanFrom? .between done (printedItems level items ++ rest)
      = scanFrom? .between ((itemTokens items).reverse ++ done) rest := by
  induction items generalizing done with
  | nil => rfl
  | cons item items ih =>
    have hitem := each item List.mem_cons_self
    have hitems := ih fun other hother => each other (List.mem_cons_of_mem _ hother)
    rw [printedItems, List.cons_append, List.append_assoc, List.append_assoc,
      Token.scanFrom?_mark rfl, Token.scanFrom?_newLine,
      hitem level _ _ (ends_printedItems level items hrest), hitems, itemTokens]
    simp

theorem scan_printedMembers {members : List (String × Json)}
    (each : ∀ member ∈ members, Scanned member.2) (level : Nat) (done : List Token)
    {rest : List Char} (hrest : Ends rest) :
    scanFrom? .between done (printedMembers level members ++ rest)
      = scanFrom? .between ((memberTokens members).reverse ++ done) rest := by
  induction members generalizing done with
  | nil => rfl
  | cons member members ih =>
    obtain ⟨name, value⟩ := member
    have hvalue := each (name, value) List.mem_cons_self
    have hmembers := ih fun other hother => each other (List.mem_cons_of_mem _ hother)
    simp only [printedMembers, List.cons_append, List.nil_append, List.append_assoc]
    rw [Token.scanFrom?_mark rfl, Token.scanFrom?_newLine, Token.scanFrom?_name,
      hvalue level _ _ (ends_printedMembers level members hrest), hmembers, memberTokens]
    simp

/-- The tokens of a value are found in its printed form. -/
theorem Writable.scanned {value : Json} (h : Writable value) : Scanned value := by
  induction h with
  | null =>
    intro level done rest hrest
    have hbare : AllBare "null".toList := by decide
    exact Token.scanFrom?_bare (show "null".toList ≠ [] by decide) hbare hrest
  | bool value =>
    intro level done rest hrest
    have htrue : AllBare "true".toList := by decide
    have hfalse : AllBare "false".toList := by decide
    cases value with
    | true => exact Token.scanFrom?_bare (show "true".toList ≠ [] by decide) htrue hrest
    | false => exact Token.scanFrom?_bare (show "false".toList ≠ [] by decide) hfalse hrest
  | number written =>
    intro level done rest hrest
    refine Token.scanFrom?_bare ?_ (allBare_of_isNumber written) hrest
    rintro rfl
    cases written
  | text value =>
    intro level done rest _
    exact Token.scanFrom?_quoted value
  | @list items each ih =>
    intro level done rest _
    cases items with
    | nil =>
      show scanFrom? .between done ('[' :: ']' :: rest) = _
      rw [Token.scanFrom?_mark rfl, Token.scanFrom?_mark rfl]
      rfl
    | cons item items =>
      have hitem := ih item List.mem_cons_self
      have hitems : ∀ other ∈ items, Scanned other :=
        fun other hother => ih other (List.mem_cons_of_mem _ hother)
      simp only [printed, List.cons_append, List.nil_append, List.append_assoc]
      rw [Token.scanFrom?_mark rfl, Token.scanFrom?_newLine,
        hitem _ _ _ (ends_printedItems _ items (ends_newLine _ _)),
        scan_printedItems hitems _ _ (ends_newLine _ _), Token.scanFrom?_newLine,
        Token.scanFrom?_mark rfl, tokens]
      simp
  | @object members each ih =>
    intro level done rest _
    cases members with
    | nil =>
      show scanFrom? .between done ('\x7b' :: '\x7d' :: rest) = _
      rw [Token.scanFrom?_mark rfl, Token.scanFrom?_mark rfl]
      rfl
    | cons member members =>
      obtain ⟨name, value⟩ := member
      have hvalue := ih (name, value) List.mem_cons_self
      have hmembers : ∀ other ∈ members, Scanned other.2 :=
        fun other hother => ih other (List.mem_cons_of_mem _ hother)
      simp only [printed, List.cons_append, List.nil_append, List.append_assoc]
      rw [Token.scanFrom?_mark rfl, Token.scanFrom?_newLine, Token.scanFrom?_name,
        hvalue _ _ _ (ends_printedMembers _ members (ends_newLine _ _)),
        scan_printedMembers hmembers _ _ (ends_newLine _ _), Token.scanFrom?_newLine,
        Token.scanFrom?_mark rfl, tokens]
      simp

/-! ### Putting tokens together -/

/-- Takes tokens one after another. -/
def join? (state : State) (written : List Token) : Option State :=
  written.foldlM State.step? state

theorem join?_cons {state next : State} {token : Token} (h : state.step? token = some next)
    (written : List Token) : join? state (token :: written) = join? next written := by
  rw [join?, List.foldlM_cons, h]
  rfl

/-- The tokens of a value are put together to the value. -/
def Joined (value : Json) : Prop :=
  ∀ (stack : List Frame) (rest : List Token),
    join? (.value stack) (tokens value ++ rest) = join? (State.complete value stack) rest

/-- No value begins with the end of a list. -/
theorem exists_tokens (value : Json) :
    ∃ token rest, tokens value = token :: rest ∧ token ≠ .closeList := by
  cases value with
  | null => exact ⟨_, _, rfl, by simp⟩
  | bool value => cases value <;> exact ⟨_, _, rfl, by simp⟩
  | number digits => exact ⟨_, _, rfl, by simp⟩
  | text value => exact ⟨_, _, rfl, by simp⟩
  | garbled => exact ⟨_, _, rfl, by simp⟩
  | list items => cases items <;> exact ⟨_, _, rfl, by simp⟩
  | object members => cases members <;> exact ⟨_, _, rfl, by simp⟩

/-- The first item of a list is a value like any other. -/
theorem Joined.first {value : Json} (h : Joined value) (stack : List Frame) (rest : List Token) :
    join? (.firstItem stack) (tokens value ++ rest)
      = join? (.behind (.list [value] :: stack)) rest := by
  obtain ⟨token, others, htokens, hopen⟩ := exists_tokens value
  have hstep : State.step? (.firstItem stack) token
      = State.step? (.value (.list [] :: stack)) token := by
    cases token with
    | closeList => exact absurd rfl hopen
    | _ => rfl
  have hvalue := h (.list [] :: stack) rest
  rw [htokens, List.cons_append, join?, List.foldlM_cons] at hvalue ⊢
  rw [hstep, hvalue]
  rfl

theorem step?_quoted_text (value : String) (stack : List Frame) :
    State.step? (.value stack) (.quoted (encode value.toList))
      = some (State.complete (.text value) stack) := by
  rw [State.step?, State.startValue?, ofQuoted?, decode_encode, String.ofList_toList]
  rfl

theorem takeName?_quoted (name : String) (members : List (Option String × Json))
    (stack : List Frame) :
    State.takeName? members stack (.quoted (encode name.toList))
      = some (.colon (.member members (some name) :: stack)) := by
  rw [State.takeName?, decode_encode, String.ofList_toList]

theorem step?_firstName (name : String) (stack : List Frame) :
    State.step? (.firstName stack) (.quoted (encode name.toList))
      = some (.colon (.member [] (some name) :: stack)) :=
  takeName?_quoted name [] stack

theorem step?_nextName (name : String) (members : List (Option String × Json))
    (stack : List Frame) :
    State.step? (.nextName members stack) (.quoted (encode name.toList))
      = some (.colon (.member members (some name) :: stack)) :=
  takeName?_quoted name members stack

theorem ofBare?_of_isNumber {digits : List Char} (h : isNumber digits = true) :
    ofBare? digits = some (.number digits) := by
  have hword : ∀ {word : List Char}, isNumber word = false → digits ≠ word := by
    rintro word hno rfl
    rw [h] at hno
    cases hno
  rw [ofBare?, if_neg (hword (by decide)), if_neg (hword (by decide)), if_neg (hword (by decide)),
    if_pos h]

theorem join_itemTokens {items : List Json} (each : ∀ item ∈ items, Joined item)
    (before : List Json) (stack : List Frame) (rest : List Token) :
    join? (.behind (.list before :: stack)) (itemTokens items ++ rest)
      = join? (.behind (.list (items.reverse ++ before) :: stack)) rest := by
  induction items generalizing before with
  | nil => rfl
  | cons item items ih =>
    have hitem := each item List.mem_cons_self
    have hitems := ih fun other hother => each other (List.mem_cons_of_mem _ hother)
    rw [itemTokens, List.cons_append, List.append_assoc, join?_cons rfl, hitem, State.complete,
      hitems, List.reverse_cons, List.append_assoc]
    rfl

/-- Members in the form in which they wait for the end of their object. -/
def waiting (members : List (String × Json)) : List (Option String × Json) :=
  (members.map fun member => (some member.1, member.2)).reverse

/-- A member is put to those before it. -/
theorem join_member {name : String} {value : Json} (hvalue : Joined value)
    (before : List (Option String × Json)) (stack : List Frame) (rest : List Token) :
    join? (.colon (.member before (some name) :: stack)) (.colon :: (tokens value ++ rest))
      = join? (.behind (.object ((some name, value) :: before) :: stack)) rest := by
  rw [join?_cons rfl, hvalue]
  rfl

theorem join_memberTokens {members : List (String × Json)}
    (each : ∀ member ∈ members, Joined member.2) (before : List (Option String × Json))
    (stack : List Frame) (rest : List Token) :
    join? (.behind (.object before :: stack)) (memberTokens members ++ rest)
      = join? (.behind (.object (waiting members ++ before) :: stack)) rest := by
  induction members generalizing before with
  | nil => rfl
  | cons member members ih =>
    obtain ⟨name, value⟩ := member
    have hvalue : Joined value := each (name, value) List.mem_cons_self
    have hmembers := ih fun other hother => each other (List.mem_cons_of_mem _ hother)
    rw [memberTokens, List.cons_append, List.cons_append, List.cons_append, List.append_assoc,
      join?_cons rfl, join?_cons (step?_nextName name before stack), join_member hvalue, hmembers,
      waiting, waiting, List.map_cons, List.reverse_cons, List.append_assoc]
    rfl

/-- An object is made of its members, of which none has lost its name. -/
theorem objectOf_waiting (members : List (String × Json)) :
    objectOf (waiting members) = .object members := by
  have hall : ∀ members : List (String × Json),
      (members.map fun member => (some member.1, member.2)).mapM (fun (member : Option String × Json) =>
        member.1.map fun name => (name, member.2)) = some members := by
    intro members
    induction members with
    | nil => rfl
    | cons member members ih =>
      rw [List.map_cons, List.mapM_cons, ih]
      rfl
  rw [objectOf, waiting, List.reverse_reverse, hall]

theorem Writable.joined {value : Json} (h : Writable value) : Joined value := by
  induction h with
  | null =>
    intro stack rest
    exact join?_cons rfl rest
  | bool value =>
    intro stack rest
    cases value with
    | true => exact join?_cons rfl rest
    | false => exact join?_cons rfl rest
  | number written =>
    intro stack rest
    refine join?_cons ?_ rest
    rw [State.step?, State.startValue?, ofBare?_of_isNumber written]
    rfl
  | text value =>
    intro stack rest
    exact join?_cons (step?_quoted_text value stack) rest
  | @list items each ih =>
    intro stack rest
    cases items with
    | nil => exact (join?_cons rfl _).trans (join?_cons rfl rest)
    | cons item items =>
      have hitem := ih item List.mem_cons_self
      have hitems : ∀ other ∈ items, Joined other :=
        fun other hother => ih other (List.mem_cons_of_mem _ hother)
      rw [tokens, List.cons_append, join?_cons rfl, List.append_assoc, List.append_assoc,
        hitem.first, join_itemTokens hitems, List.cons_append, join?_cons rfl]
      simp
  | @object members each ih =>
    intro stack rest
    cases members with
    | nil => exact (join?_cons rfl _).trans (join?_cons rfl rest)
    | cons member members =>
      obtain ⟨name, value⟩ := member
      have hvalue : Joined value := ih (name, value) List.mem_cons_self
      have hmembers : ∀ other ∈ members, Joined other.2 :=
        fun other hother => ih other (List.mem_cons_of_mem _ hother)
      have hobject := objectOf_waiting ((name, value) :: members)
      rw [waiting, List.map_cons, List.reverse_cons] at hobject
      rw [tokens, List.cons_append, join?_cons rfl, List.cons_append,
        join?_cons (step?_firstName name stack), List.cons_append, List.append_assoc,
        List.append_assoc, join_member hvalue, join_memberTokens hmembers, List.cons_append,
        join?_cons rfl, waiting, hobject]
      rfl

/-! ### Whole texts -/

theorem read?_printed {value : Json} (h : Writable value) :
    read? (value.render ++ "\n") = some value := by
  have hscan : Token.scan? (value.render ++ "\n").toList = some (tokens value) := by
    have hend : "\n".toList = ['\n'] := by decide
    rw [render, String.toList_append, String.toList_ofList, hend, Token.scan?,
      h.scanned 0 [] _ (ends_cons (by decide) _), List.append_nil, Token.scanFrom?_blank rfl,
      scanFrom?, List.reverse_reverse]
  have hjoin : (tokens value).foldlM State.step? (.value []) = some (.finished value) := by
    have hvalue := h.joined [] []
    rw [List.append_nil] at hvalue
    exact hvalue
  rw [read?, hscan, Option.bind_some, hjoin]

end BuildAlignment.Json
