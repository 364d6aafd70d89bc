/-
  File:      TrueSealSync/Sdk/RelayAddress.lean
  Subject:   RELAY ADDRESSES: what the typed form prints, and what becomes of it when the core parses
             the text again.

  The parser is the core's and not in this repository. It is a parameter `parse`, and what is assumed
  of it is that it accepts exactly the documented grammar,
  `trueseal://<64 hex>@host[:receivePort][?push=pushPort]`. It reads a Rust `String`, which is UTF-8:
  what a JavaScript string is for it, napi decides (`napiString`).

  * `RelayAddress`, `RelayAddress.toString`, `parseRelayAddress` -- the code of src/index.ts and of
    parse_relay_address in src/session.rs;
  * `Grammar`, `Exact` -- the grammar, and what it means to accept exactly that;
  * `parts_unique` -- two texts of the shape of an address that are equal have equal parts;
  * `relay_address_round_trip` -- printing and parsing gives the address back, an IPv6 host in
    brackets;
  * `printing_never_retargets` -- what is printed, if it is accepted, means the same relay.
-/
import TrueSealSync.Lib.Hex
import TrueSealSync.Lib.NumberText
import TrueSealSync.Lib.Utf16
import TrueSealSync.Sdk.Errors

namespace TrueSealSync.Sdk

open TrueSealSync.Lib
open TrueSealSync.Lib.Binary64 (Digits digitsValue isNumberChar)
open TrueSealSync.Lib.Utf16 (unit)

/-! ## 1. Texts -/

/-- A JavaScript string, by its UTF-16 code units. -/
abbrev JsString : Type := List UInt16

/-- The code units of a text of the basic plane. -/
def units (text : List Char) : JsString := text.map unit

/-- The `String` napi makes of a JavaScript string. It is UTF-8, so each surrogate without a partner
    arrives as U+FFFD. -/
def napiString (s : JsString) : List Char := Utf16.decode s

/-- The JavaScript string napi makes of a `String`. -/
def jsString (text : List Char) : JsString := Utf16.encode text

/-! ## 2. The typed form -/

/-- `RelayAddress`. -/
structure RelayAddress where
  host : JsString
  publicKey : List UInt8
  receivePort : Binary64
  pushPort : Binary64

namespace RelayAddress

/-- The constructor, with its defaults. -/
def construct (host : JsString) (publicKey : List UInt8) (receivePort pushPort : Option Binary64) :
    RelayAddress where
  host := host
  publicKey := publicKey
  receivePort := receivePort.getD (Binary64.ofU64 7700)
  pushPort := pushPort.getD (Binary64.ofU64 7701)

/-- `[host]`. -/
def bracketed (host : JsString) : JsString := unit '[' :: host ++ [unit ']']

/-- The host as `toString` prints it: in brackets if it has a colon and no bracket in front. -/
def printedHost (host : JsString) : JsString :=
  if host.contains (unit ':') && !(host.head? == some (unit '[')) then bracketed host else host

/-- `RelayAddress.toString`. -/
def toString (a : RelayAddress) : JsString :=
  units "trueseal://".toList ++ units (hexOfBytes a.publicKey) ++ units "@".toList ++
    printedHost a.host ++ units ":".toList ++ units a.receivePort.toText ++
    units "?push=".toList ++ units a.pushPort.toText

end RelayAddress

/-- The string `TrueSeal.open` hands to the native session. -/
def relayAddressString : JsString ⊕ RelayAddress → JsString
  | .inl relay => relay
  | .inr relay => relay.toString

/-! ## 3. Parsing -/

/-- What the core makes of an address. -/
structure CoreRelayAddress where
  host : List Char
  publicKey : List UInt8
  receivePort : UInt16
  pushPort : UInt16

/-- `ParsedAddress`; the ports are `u32` at the border. -/
structure ParsedAddress where
  host : List Char
  publicKey : List UInt8
  receivePort : UInt32
  pushPort : UInt32

/-- What the core makes of the relay `TrueSeal.open` was given. -/
def openedRelay (parse : List Char → Except String CoreRelayAddress)
    (relay : JsString ⊕ RelayAddress) : Except String CoreRelayAddress :=
  parse (napiString (relayAddressString relay))

section Parsing

variable {υ : Type} (toString : CoreError → String)
  (parse : List Char → Except String CoreRelayAddress) (realm : Realm (Host υ)) (conversionError : JsVal)

/-- `parse_relay_address`. -/
def parse_relay_address (input : List Char) : Js (Host υ) ParsedAddress :=
  match parse input with
  | .ok parsed => pure ⟨parsed.host, parsed.publicKey, parsed.receivePort.toUInt32,
      parsed.pushPort.toUInt32⟩
  | .error msg => typedErr toString (.invalidRelayAddress msg)

/-- `TrueSeal.parseRelayAddress`. -/
def parseRelayAddress (input : JsString) : Js (Host υ) RelayAddress :=
  tryCatch (do
    let parsed ← parse_relay_address toString parse (napiString input)
    return .construct (jsString parsed.host) parsed.publicKey
      (some (Binary64.ofU64 parsed.receivePort.toNat)) (some (Binary64.ofU64 parsed.pushPort.toNat)))
    (rethrowTyped realm conversionError)

/-- The object an address of the core becomes. -/
def CoreRelayAddress.typed (p : CoreRelayAddress) : RelayAddress :=
  ⟨jsString p.host, p.publicKey, Binary64.ofU64 p.receivePort.toNat,
    Binary64.ofU64 p.pushPort.toNat⟩

/-- **Parsing answers the typed form of what the core answers, and throws a typed
    `invalidRelayAddress` where the core rejects.** -/
theorem parseRelayAddress_exec (input : JsString) (w : Host υ) :
    (parseRelayAddress toString parse realm conversionError input).exec w =
      match parse (napiString input) with
      | .ok p => (.ok p.typed, w)
      | .error msg => (.error (.object (w.heap.next + 1)),
          (w.push (typedErrObject toString (.invalidRelayAddress msg))).push
            (trueSealError (.string "invalidRelayAddress") (some (toString (.invalidRelayAddress msg)))
              (CoreError.invalidRelayAddress msg).extras)) := by
  unfold parseRelayAddress parse_relay_address
  cases parse (napiString input) with
  | ok p =>
      rw [Throwing.exec_tryCatch]
      simp only [Throwing.exec_bind, Throwing.exec_pure]
      simp [RelayAddress.construct, CoreRelayAddress.typed]
  | error msg =>
      have hcaught := caught_exec (α := RelayAddress) toString realm conversionError
        (.invalidRelayAddress msg) w
      rw [Throwing.exec_tryCatch] at hcaught ⊢
      simp only [Throwing.exec_bind]
      exact hcaught

end Parsing

/-! ## 4. The documented grammar -/

/-- `:port`, if there is one. -/
def receiveText : Option (List Char) → List Char
  | some port => ':' :: port
  | none => []

/-- `?push=port`, if there is one. -/
def pushText : Option (List Char) → List Char
  | some port => '?' :: ("push=".toList ++ port)
  | none => []

/-- The text of an address with the given parts. -/
def addressText (key host : List Char) (receive push : Option (List Char)) : List Char :=
  "trueseal://".toList ++ key ++ '@' :: (host ++ receiveText receive ++ pushText push)

/-- A host in brackets. -/
def inBrackets (host : List Char) : List Char := '[' :: host ++ [']']

/-- A decimal `u16`; where it is left out the default. -/
def PortText (default port : UInt16) : Option (List Char) → Prop
  | some text => Digits text ∧ digitsValue text = port.toNat
  | none => port = default

/-- A host: no `@` and no `?` in it, and a colon only between brackets. -/
structure HostText (host : List Char) : Prop where
  at_ : '@' ∉ host
  question : '?' ∉ host
  colon : ':' ∈ host → ∃ inner, host = inBrackets inner

/-- **The documented grammar**: `input` is an address, and it means `p`. What else the core demands
    of a host is `valid`. -/
structure Grammar (valid : List Char → Prop) (input : List Char) (p : CoreRelayAddress)
    (key : List Char) (receive push : Option (List Char)) : Prop where
  text : input = addressText key p.host receive push
  length : key.length = 64
  hex : bytesOfHex key = some p.publicKey
  host : HostText p.host
  valid : valid p.host
  receive : PortText 7700 p.receivePort receive
  push : PortText 7701 p.pushPort push

/-- The parser accepts exactly the grammar. -/
def Exact (valid : List Char → Prop) (parse : List Char → Except String CoreRelayAddress) : Prop :=
  ∀ input p, parse input = .ok p ↔ ∃ key receive push, Grammar valid input p key receive push

/-! ## 5. The parts of an address -/

theorem isNumberChar_bound {c : Char} (h : isNumberChar c = true) : c.toNat < 128 := by
  simp only [isNumberChar, Bool.or_eq_true, beq_iff_eq] at h
  rcases h with ((h | rfl) | rfl) | rfl
  · rw [isAlphanum_iff] at h
    omega
  all_goals decide

/-- The delimiters of the grammar. -/
def Delimiter (d : Char) : Prop := d ∈ [':', '?', '@', '[', ']']

instance (d : Char) : Decidable (Delimiter d) := inferInstanceAs (Decidable (_ ∈ _))

theorem Delimiter.cases {d : Char} (h : Delimiter d) :
    d = ':' ∨ d = '?' ∨ d = '@' ∨ d = '[' ∨ d = ']' := by
  simpa [Delimiter] using h

/-- **No delimiter occurs in a text of letters, digits, points and signs.** -/
theorem delimiter_notMem {text : List Char} (h : ∀ c ∈ text, isNumberChar c = true) {d : Char}
    (hd : Delimiter d) : d ∉ text := by
  have hno : isNumberChar d = false := by
    rcases hd.cases with rfl | rfl | rfl | rfl | rfl <;> decide
  intro hm
  rw [h d hm] at hno
  cases hno

/-- The text of a port: not empty, and made of such characters. -/
def Plain (port : Option (List Char)) : Prop :=
  ∀ text, port = some text → text ≠ [] ∧ ∀ c ∈ text, isNumberChar c = true

theorem plain_of_portText {default port : UInt16} {text : Option (List Char)}
    (h : PortText default port text) : Plain text := by
  rintro text rfl
  exact ⟨h.1.1, fun c hc => Binary64.isNumberChar_of_isDigit (h.1.2 c hc)⟩

theorem plain_toText (x : Binary64) : Plain (some x.toText) := by
  rintro text h
  obtain rfl := Option.some.inj h
  exact ⟨x.toText_ne_nil, x.toText_chars⟩

theorem notMem_receiveText {port : Option (List Char)} (h : Plain port) {d : Char} (hd : Delimiter d)
    (hne : d ≠ ':') : d ∉ receiveText port := by
  cases port with
  | none => exact nofun
  | some text =>
      intro hm
      rcases List.mem_cons.mp hm with he | hm
      · exact hne he
      · exact delimiter_notMem (h text rfl).2 hd hm

/-- Of the characters that delimit, a push part has its `?` only. -/
theorem notMem_push {text : List Char} (h : ∀ c ∈ text, isNumberChar c = true) {d : Char}
    (hd : Delimiter d) : d ∉ "push=".toList ++ text := by
  have hliteral : d ∉ "push=".toList := by
    rcases hd.cases with rfl | rfl | rfl | rfl | rfl <;> decide
  rw [List.mem_append]
  rintro (hm | hm)
  · exact hliteral hm
  · exact delimiter_notMem h hd hm

/-- The last occurrence of an element splits a list in one way. -/
theorem append_cons_inj_last {α : Type} {a : α} {x x' z z' : List α} (hz : a ∉ z) (hz' : a ∉ z')
    (h : x ++ a :: z = x' ++ a :: z') : x = x' ∧ z = z' := by
  rcases List.append_eq_append_iff.mp h with ⟨c, rfl, hc⟩ | ⟨c, rfl, hc⟩
  · cases c with
    | nil =>
        rw [List.append_nil]
        exact ⟨rfl, (List.cons.inj hc).2⟩
    | cons b c =>
        obtain ⟨-, rfl⟩ := List.cons.inj hc
        exact absurd (by simp) hz
  · cases c with
    | nil =>
        rw [List.append_nil]
        exact ⟨rfl, ((List.cons.inj hc).2).symm⟩
    | cons b c =>
        obtain ⟨-, rfl⟩ := List.cons.inj hc
        exact absurd (by simp) hz'

/-- **The push part is found**: its `?` is the only one. -/
theorem push_unique {front front' : List Char} {push push' : Option (List Char)}
    (hfront : '?' ∉ front) (hfront' : '?' ∉ front' ∨ push' ≠ none) (hp : Plain push)
    (hp' : Plain push') (h : front ++ pushText push = front' ++ pushText push') :
    front = front' ∧ push = push' := by
  have hq : Delimiter '?' := by decide
  cases push with
  | none =>
      cases push' with
      | none => exact ⟨by simpa [pushText] using h, rfl⟩
      | some text' =>
          refine absurd ?_ hfront
          have hf : front = front' ++ pushText (some text') := by simpa [pushText] using h
          rw [hf]
          simp [pushText]
  | some text =>
      have hno := notMem_push (hp text rfl).2 hq
      cases push' with
      | none =>
          have hf : front' = front ++ pushText (some text) := by simpa [pushText] using h.symm
          refine absurd ?_ (hfront'.resolve_right fun hne => hne rfl)
          rw [hf]
          simp [pushText]
      | some text' =>
          obtain ⟨hfronts, hrest⟩ :=
            append_cons_inj_last hno (notMem_push (hp' text' rfl).2 hq) h
          exact ⟨hfronts, congrArg some (List.append_cancel_left hrest)⟩

/-- A host with a colon ends in a bracket, the text of a port does not. -/
theorem host_ne_port {host front : List Char} (hh : HostText host) {text : List Char}
    (ht : text ≠ [] ∧ ∀ c ∈ text, isNumberChar c = true) :
    host ≠ front ++ receiveText (some text) := by
  intro he
  have hbracket : Delimiter ']' := by decide
  obtain ⟨inner, hi⟩ := hh.colon (by rw [he]; simp [receiveText])
  have hlast : (front ++ receiveText (some text)).getLast? = some ']' := by
    rw [← he, hi]
    exact List.getLast?_concat
  refine delimiter_notMem ht.2 hbracket ?_
  have hsplit : front ++ receiveText (some text) = (front ++ [':']) ++ text := by
    simp [receiveText]
  rw [hsplit, List.getLast?_append_of_ne_nil _ ht.1] at hlast
  exact List.mem_of_getLast? hlast

/-- **The port is found**: its `:` is the last one. -/
theorem receive_unique {host host' : List Char} {receive receive' : Option (List Char)}
    (hh : HostText host) (hh' : HostText host' ∨ receive' ≠ none) (hp : Plain receive)
    (hp' : Plain receive') (h : host ++ receiveText receive = host' ++ receiveText receive') :
    host = host' ∧ receive = receive' := by
  have hcolon : Delimiter ':' := by decide
  cases receive with
  | none =>
      cases receive' with
      | none => exact ⟨by simpa [receiveText] using h, rfl⟩
      | some text' =>
          have hf : host = host' ++ receiveText (some text') := by simpa [receiveText] using h
          exact absurd hf (host_ne_port hh (hp' text' rfl))
  | some text =>
      cases receive' with
      | none =>
          have hf : host' = host ++ receiveText (some text) := by simpa [receiveText] using h.symm
          exact absurd hf (host_ne_port (hh'.resolve_right fun hne => hne rfl) (hp text rfl))
      | some text' =>
          obtain ⟨hhosts, hrest⟩ := append_cons_inj_last
            (delimiter_notMem (hp text rfl).2 hcolon) (delimiter_notMem (hp' text' rfl).2 hcolon) h
          exact ⟨hhosts, congrArg some hrest⟩

/-- **Equal texts have equal parts**: one of them is an address of the grammar, and so is the other
    one, or it states both ports. -/
theorem parts_unique {key key' host host' : List Char}
    {receive push receive' push' : Option (List Char)} (hk : ∀ c ∈ key, isNumberChar c = true)
    (hh : HostText host) (hr : Plain receive) (hp : Plain push) (hr' : Plain receive')
    (hp' : Plain push')
    (hh' : HostText host' ∨ receive' ≠ none ∧ push' ≠ none)
    (h : addressText key host receive push = addressText key' host' receive' push') :
    key = key' ∧ host = host' ∧ receive = receive' ∧ push = push' := by
  have hat : Delimiter '@' := by decide
  have hquestion : Delimiter '?' := by decide
  have hfront : ∀ {host : List Char} {receive : Option (List Char)}, HostText host → Plain receive →
      '?' ∉ host ++ receiveText receive := fun hh hr hm => by
    rcases List.mem_append.mp hm with hm | hm
    · exact hh.question hm
    · exact notMem_receiveText hr hquestion (by decide) hm
  have hscheme : ∀ {key : List Char}, (∀ c ∈ key, isNumberChar c = true) →
      '@' ∉ "trueseal://".toList ++ key := fun hk hm => by
    have hliteral : '@' ∉ "trueseal://".toList := by decide
    rw [List.mem_append] at hm
    exact hm.elim hliteral (delimiter_notMem hk hat)
  have hrest : '@' ∉ host ++ receiveText receive ++ pushText push := by
    rw [List.mem_append, List.mem_append]
    rintro ((hm | hm) | hm)
    · exact hh.at_ hm
    · exact notMem_receiveText hr hat (by decide) hm
    · cases push with
      | none => cases hm
      | some text =>
          rcases List.mem_cons.mp hm with he | hm
          · exact absurd he (by decide)
          · exact notMem_push (hp text rfl).2 hat hm
  obtain ⟨hkeys, -, hrests⟩ := (List.append_cons_inj_of_notMem (hscheme hk) hrest).mp h
  obtain ⟨hfronts, hpush⟩ := push_unique (hfront hh hr)
    (hh'.imp (fun hh' => hfront hh' hr') And.right) hp hp' hrests
  obtain ⟨hhost, hreceive⟩ := receive_unique hh (hh'.imp_right And.left) hr hr' hfronts
  exact ⟨List.append_cancel_left hkeys, hhost, hreceive, hpush⟩

theorem Grammar.key {valid : List Char → Prop} {input : List Char} {p : CoreRelayAddress}
    {key : List Char} {receive push : Option (List Char)} (h : Grammar valid input p key receive push) :
    ∀ c ∈ key, isNumberChar c = true := fun c hc => by
  simp [isNumberChar, isAlphanum_of_bytesOfHex h.hex c hc]

/-- **The grammar is unambiguous**: an address means one thing. -/
theorem grammar_unique {valid : List Char → Prop} {input : List Char} {p p' : CoreRelayAddress}
    {key key' : List Char} {receive receive' push push' : Option (List Char)}
    (h : Grammar valid input p key receive push) (h' : Grammar valid input p' key' receive' push') :
    p = p' := by
  have hport : ∀ {default port port' : UInt16} {text : Option (List Char)},
      PortText default port text → PortText default port' text → port = port' := by
    intro default port port' text hp hp'
    cases text with
    | none => exact hp.trans hp'.symm
    | some text => exact UInt16.toNat_inj.mp (hp.2.symm.trans hp'.2)
  obtain ⟨rfl, hhost, rfl, rfl⟩ := parts_unique h.key h.host (plain_of_portText h.receive)
    (plain_of_portText h.push) (plain_of_portText h'.receive) (plain_of_portText h'.push)
    (Or.inl h'.host) (h.text.symm.trans h'.text)
  have hkeys := Option.some.inj (h.hex.symm.trans h'.hex)
  have hreceive := hport h.receive h'.receive
  have hpush := hport h.push h'.push
  obtain ⟨host, publicKey, receivePort, pushPort⟩ := p
  obtain ⟨host', publicKey', receivePort', pushPort'⟩ := p'
  simp only at hhost hkeys hreceive hpush
  rw [hhost, hkeys, hreceive, hpush]

/-! ## 6. Printing -/

namespace RelayAddress

theorem hex_chars (bytes : List UInt8) : ∀ c ∈ hexOfBytes bytes, isNumberChar c = true := fun c hc => by
  simp [isNumberChar, isAlphanum_of_bytesOfHex (bytesOfHex_hexOfBytes bytes) c hc]

theorem printedHost_cases (host : JsString) :
    printedHost host = host ∨ printedHost host = bracketed host := by
  unfold printedHost
  split
  · exact Or.inr rfl
  · exact Or.inl rfl

theorem printedHost_of_no_colon {host : JsString} (h : unit ':' ∉ host) : printedHost host = host := by
  unfold printedHost
  refine if_neg fun hc => ?_
  rw [Bool.and_eq_true, List.contains_iff_mem] at hc
  exact h hc.1

theorem printedHost_of_bracket {host : JsString} (h : host.head? = some (unit '[')) :
    printedHost host = host := by
  unfold printedHost
  rw [h]
  simp

theorem printedHost_of_colon {host : JsString} (hc : unit ':' ∈ host)
    (hb : host.head? ≠ some (unit '[')) : printedHost host = bracketed host := by
  unfold printedHost
  rw [if_pos]
  rw [Bool.and_eq_true, Bool.not_eq_true', List.contains_iff_mem]
  exact ⟨hc, beq_eq_false_iff_ne.mpr hb⟩

end RelayAddress

/-! What napi makes of the parts of an address. -/

@[simp] theorem napiString_jsString (text : List Char) : napiString (jsString text) = text :=
  Utf16.decode_encode text

theorem mem_jsString {c : Char} (hc : c.toNat < 128) (text : List Char) :
    unit c ∈ jsString text ↔ c ∈ text := by
  rw [← Utf16.mem_decode hc]
  exact iff_of_eq (congrArg (c ∈ ·) (napiString_jsString text))

theorem ascii_of_all {text : List Char} (h : text.all (·.toNat < 128) = true) :
    ∀ c ∈ text, c.toNat < 128 := fun c hc => of_decide_eq_true (List.all_eq_true.mp h c hc)

/-- A text of ASCII is handed over as it is, whatever comes after it. -/
theorem napiString_units {text : List Char} (h : ∀ c ∈ text, c.toNat < 128) (rest : JsString) :
    napiString (units text ++ rest) = text ++ napiString rest :=
  Utf16.decode_units (fun c hc => Nat.lt_trans (h c hc) (by decide)) rest

/-- So is what comes before one. -/
theorem napiString_append_units (s : JsString) {text : List Char} (h : ∀ c ∈ text, c.toNat < 128) :
    napiString (s ++ units text) = napiString s ++ text := by
  have hhead : ∀ u ∈ (units text).head?, Utf16.isTrailing u = false := by
    intro u hu
    cases text with
    | nil => cases hu
    | cons c text =>
        obtain rfl : unit c = u := Option.some.inj hu
        exact (Utf16.unit_plain (Nat.lt_trans (h c List.mem_cons_self) (by decide))).2
  have hrest : Utf16.decode (units text) = text := by
    have hall := napiString_units h []
    rwa [List.append_nil, show napiString [] = [] from rfl, List.append_nil] at hall
  unfold napiString
  rw [Utf16.decode_append s hhead, hrest]

theorem napiString_bracketed (host : JsString) :
    napiString (RelayAddress.bracketed host) = inBrackets (napiString host) := by
  have hopen : RelayAddress.bracketed host = units ['['] ++ (host ++ units [']']) := rfl
  rw [hopen, napiString_units (ascii_of_all (by decide)),
    napiString_append_units _ (ascii_of_all (by decide))]
  rfl

theorem jsString_inBrackets (host : List Char) :
    jsString (inBrackets host) = RelayAddress.bracketed (jsString host) := by
  simp only [jsString, inBrackets, Utf16.encode, List.cons_append, List.flatMap_cons,
    List.flatMap_append, List.flatMap_nil, List.append_nil]
  rfl

/-- The text of a host starts with a bracket where the host does. -/
theorem head_jsString {host : List Char} (h : (jsString host).head? = some (unit '[')) :
    host.head? = some '[' := by
  obtain ⟨rest, hrest⟩ := List.head?_eq_some_iff.mp h
  have htext := napiString_jsString host
  have hplain : Utf16.isLeading (unit '[') = false := by decide
  rw [hrest, napiString, Utf16.decode_cons hplain] at htext
  rw [← htext]
  rfl

/-- What stands before the host, and what stands after it, is ASCII. -/
theorem front_ascii (bytes : List UInt8) :
    ∀ c ∈ "trueseal://".toList ++ hexOfBytes bytes ++ ['@'], c.toNat < 128 := by
  have hscheme : ∀ c ∈ "trueseal://".toList, c.toNat < 128 := ascii_of_all (by decide)
  have hat : ∀ c ∈ ['@'], c.toNat < 128 := ascii_of_all (by decide)
  intro c hc
  rcases List.mem_append.mp hc with hc | hc
  · rcases List.mem_append.mp hc with hc | hc
    · exact hscheme c hc
    · exact isNumberChar_bound (RelayAddress.hex_chars bytes c hc)
  · exact hat c hc

theorem back_ascii (x y : Binary64) :
    ∀ c ∈ ':' :: x.toText ++ ("?push=".toList ++ y.toText), c.toNat < 128 := by
  have hpush : ∀ c ∈ "?push=".toList, c.toNat < 128 := ascii_of_all (by decide)
  have hcolon : ':'.toNat < 128 := by decide
  intro c hc
  rcases List.mem_append.mp hc with hc | hc
  · rcases List.mem_cons.mp hc with rfl | hc
    · exact hcolon
    · exact isNumberChar_bound (x.toText_chars c hc)
  · rcases List.mem_append.mp hc with hc | hc
    · exact hpush c hc
    · exact isNumberChar_bound (y.toText_chars c hc)

/-- What an address prints, as the core reads it. -/
theorem napiString_toString (a : RelayAddress) : napiString a.toString =
    addressText (hexOfBytes a.publicKey) (napiString (RelayAddress.printedHost a.host))
      (some a.receivePort.toText) (some a.pushPort.toText) := by
  have hparts : a.toString =
      units ("trueseal://".toList ++ hexOfBytes a.publicKey ++ ['@']) ++
        (RelayAddress.printedHost a.host ++
          units (':' :: a.receivePort.toText ++ ("?push=".toList ++ a.pushPort.toText))) := by
    unfold RelayAddress.toString units
    simp only [List.map_append, List.map_cons, List.append_assoc, List.cons_append]
    rfl
  rw [hparts, napiString_units (front_ascii a.publicKey),
    napiString_append_units _ (back_ascii a.receivePort a.pushPort)]
  unfold addressText receiveText pushText
  simp only [List.append_assoc, List.cons_append, List.nil_append]
  rfl

/-- A host of the grammar is printed as it is. -/
theorem printedHost_of_hostText {host : List Char} (h : HostText host) :
    RelayAddress.printedHost (jsString host) = jsString host := by
  by_cases hc : ':' ∈ host
  · obtain ⟨inner, rfl⟩ := h.colon hc
    refine RelayAddress.printedHost_of_bracket ?_
    rw [jsString_inBrackets]
    rfl
  · exact RelayAddress.printedHost_of_no_colon (mt (mem_jsString (by decide) host).mp hc)

/-- The text of a small natural number is the port it is. -/
theorem portText_toText {default port : UInt16} {x : Binary64} (h : x.value = some (port.toNat : ℚ)) :
    PortText default port (some x.toText) := by
  have hlt := port.toNat_lt
  rw [Binary64.toText_of_natural h (by omega)]
  exact ⟨Binary64.digits_toDigits _, Binary64.digitsValue_toDigits _⟩

/-- And no other one is. -/
theorem value_of_portText {default port : UInt16} {x : Binary64}
    (h : PortText default port (some x.toText)) : x.value = some (port.toNat : ℚ) := by
  have hlt := port.toNat_lt
  rw [← h.2]
  exact Binary64.value_of_toText h.1.2 (by rw [h.2]; omega)

theorem value_port (port : UInt16) : (Binary64.ofU64 port.toNat).value = some (port.toNat : ℚ) :=
  Binary64.value_ofU64 (by have := port.toNat_lt; omega)

section Results

variable {valid : List Char → Prop} {parse : List Char → Except String CoreRelayAddress}

/-- **Printing an address with a host of the grammar, 32 bytes of key and ports of 16 bits gives an
    address that means it.** -/
theorem parse_toString (hexact : Exact valid parse) {a : RelayAddress} {p : CoreRelayAddress}
    (hhost : napiString (RelayAddress.printedHost a.host) = p.host) (htext : HostText p.host)
    (hvalid : valid p.host) (hkey : a.publicKey = p.publicKey) (hlen : a.publicKey.length = 32)
    (hr : a.receivePort.value = some (p.receivePort.toNat : ℚ))
    (hp : a.pushPort.value = some (p.pushPort.toNat : ℚ)) :
    parse (napiString a.toString) = .ok p := by
  refine (hexact _ _).mpr ⟨hexOfBytes a.publicKey, some a.receivePort.toText, some a.pushPort.toText,
    ?_, ?_, ?_, htext, hvalid, portText_toText hr, portText_toText hp⟩
  · rw [napiString_toString, hhost]
  · rw [length_hexOfBytes, hlen]
  · rw [bytesOfHex_hexOfBytes, hkey]

/-- **What is printed, if the core accepts it, means the parts it was printed from.** -/
theorem parse_toString_inv (hexact : Exact valid parse) {a : RelayAddress} {p : CoreRelayAddress}
    (h : parse (napiString a.toString) = .ok p) : p.publicKey = a.publicKey ∧
      a.receivePort.value = some (p.receivePort.toNat : ℚ) ∧
      a.pushPort.value = some (p.pushPort.toNat : ℚ) ∧
      p.host = napiString (RelayAddress.printedHost a.host) := by
  obtain ⟨key, receive, push, hg⟩ := (hexact _ _).mp h
  obtain ⟨rfl, hhost, rfl, rfl⟩ := parts_unique hg.key hg.host (plain_of_portText hg.receive)
    (plain_of_portText hg.push) (plain_toText _) (plain_toText _) (Or.inr ⟨nofun, nofun⟩)
    (hg.text.symm.trans (napiString_toString a))
  have hkey := hg.hex
  rw [bytesOfHex_hexOfBytes] at hkey
  exact ⟨(Option.some.inj hkey).symm, value_of_portText hg.receive, value_of_portText hg.push, hhost⟩

/-! ## 7. The results -/

/-- The hosts an address can be built with: DNS names and IPv4 addresses, in which no delimiter of the
    grammar occurs, and IPv6 addresses without brackets; the core takes them, the last ones in
    brackets. -/
inductive Documented (valid : List Char → Prop) (host : List Char) : Prop where
  | name (hne : host ≠ []) (hat : '@' ∉ host) (hquestion : '?' ∉ host) (hcolon : ':' ∉ host)
      (hvalid : valid host)
  | ipv6 (hcolon : ':' ∈ host) (hat : '@' ∉ host) (hquestion : '?' ∉ host)
      (hbracket : host.head? ≠ some '[') (hvalid : valid (inBrackets host))

theorem notMem_inBrackets {host : List Char} {c : Char} (h : c ∉ host) (hopen : c ≠ '[')
    (hclose : c ≠ ']') : c ∉ inBrackets host := by
  intro hm
  rcases List.mem_append.mp hm with hm | hm
  · exact (List.mem_cons.mp hm).elim hopen h
  · exact hclose (List.mem_singleton.mp hm)

theorem hostText_inBrackets {host : List Char} (hat : '@' ∉ host) (hquestion : '?' ∉ host) :
    HostText (inBrackets host) :=
  ⟨notMem_inBrackets hat (by decide) (by decide), notMem_inBrackets hquestion (by decide) (by decide),
    fun _ => ⟨host, rfl⟩⟩

/-- Parsing what `a` prints answers an address with the host `host` and the other parts of `a`. -/
def ComesBack {υ : Type} (toString : CoreError → String)
    (parse : List Char → Except String CoreRelayAddress) (realm : Realm (Host υ))
    (conversionError : JsVal) (a : RelayAddress) (host : JsString) (w : Host υ) : Prop :=
  ∃ b, (parseRelayAddress toString parse realm conversionError a.toString).exec w = (.ok b, w) ∧
    b.host = host ∧ b.publicKey = a.publicKey ∧ b.receivePort.value = a.receivePort.value ∧
    b.pushPort.value = a.pushPort.value

/-- **An address survives printing and parsing, with an IPv6 host in brackets**: everything comes
    back as it is, exactly where the host has no colon, that is where it is a DNS name or an IPv4
    address. -/
theorem relay_address_round_trip {υ : Type} (toString : CoreError → String) (realm : Realm (Host υ))
    (conversionError : JsVal) (w : Host υ) (hexact : Exact valid parse) {a : RelayAddress}
    {host : List Char} (ha : a.host = jsString host) (hhost : Documented valid host)
    (hkey : a.publicKey.length = 32) {receivePort pushPort : UInt16}
    (hr : a.receivePort.value = some (receivePort.toNat : ℚ))
    (hp : a.pushPort.value = some (pushPort.toNat : ℚ)) :
    ComesBack toString parse realm conversionError a
      (if unit ':' ∈ a.host then RelayAddress.bracketed a.host else a.host) w ∧
    (ComesBack toString parse realm conversionError a a.host w ↔ unit ':' ∉ a.host) := by
  -- where the core takes the host as printed, everything else comes back
  have hparse : ∀ {printed}, napiString (RelayAddress.printedHost a.host) = printed →
      HostText printed → valid printed → ∀ back,
      (ComesBack toString parse realm conversionError a back w ↔ jsString printed = back) := by
    intro printed hprinted htext hvalid back
    have hok := parse_toString hexact (p := ⟨printed, a.publicKey, receivePort, pushPort⟩) hprinted
      htext hvalid rfl hkey hr hp
    have hexec := parseRelayAddress_exec toString parse realm conversionError a.toString w
    rw [hok] at hexec
    constructor
    · rintro ⟨b, hb, hbhost, -⟩
      obtain ⟨hb, -⟩ := Prod.mk.inj (hexec.symm.trans hb)
      rw [← hbhost, ← Except.ok.inj hb]
      rfl
    · intro he
      exact ⟨_, hexec, he, rfl, (value_port receivePort).trans hr.symm,
        (value_port pushPort).trans hp.symm⟩
  have hmem : unit ':' ∈ a.host ↔ ':' ∈ host := by
    rw [ha]
    exact mem_jsString (by decide) host
  cases hhost with
  | name hne hat hquestion hcolon hvalid =>
      have htext : HostText host := ⟨hat, hquestion, fun hc => absurd hc hcolon⟩
      have hprinted : napiString (RelayAddress.printedHost a.host) = host := by
        rw [ha, printedHost_of_hostText htext, napiString_jsString]
      rw [if_neg (mt hmem.mp hcolon), hparse hprinted htext hvalid]
      exact ⟨ha.symm, iff_of_true ha.symm (mt hmem.mp hcolon)⟩
  | ipv6 hcolon hat hquestion hbracket hvalid =>
      have hb : a.host.head? ≠ some (unit '[') := by
        rw [ha]
        exact mt head_jsString hbracket
      have hprinted : napiString (RelayAddress.printedHost a.host) = inBrackets host := by
        rw [RelayAddress.printedHost_of_colon (hmem.mpr hcolon) hb, napiString_bracketed, ha,
          napiString_jsString]
      have hback : jsString (inBrackets host) = RelayAddress.bracketed a.host := by
        rw [jsString_inBrackets, ha]
      have hiff := hparse hprinted (hostText_inBrackets hat hquestion) hvalid
      rw [if_pos (hmem.mpr hcolon), hiff, hiff]
      refine ⟨hback, iff_of_false (fun he => ?_) (not_not.mpr (hmem.mpr hcolon))⟩
      have hlen := congrArg List.length (hback.symm.trans he)
      simp only [RelayAddress.bracketed, List.cons_append, List.length_cons, List.length_append] at hlen
      omega

/-- **Printing never retargets.** What an address prints for `TrueSeal.open`, if the core accepts it,
    means the same key and ports, and the same host or that in brackets; of a host that is no text
    each surrogate without a partner counts as U+FFFD. And an address the core accepts is parsed to
    its typed form, which `TrueSeal.open` takes for the same address and whose text is parsed to the
    same typed form again. -/
theorem printing_never_retargets {υ : Type} (toString : CoreError → String) (realm : Realm (Host υ))
    (conversionError : JsVal) (hexact : Exact valid parse) :
    (∀ (a : RelayAddress) p, openedRelay parse (.inr a) = .ok p → p.publicKey = a.publicKey ∧
      a.receivePort.value = some (p.receivePort.toNat : ℚ) ∧
      a.pushPort.value = some (p.pushPort.toNat : ℚ) ∧
      (p.host = napiString a.host ∨ p.host = inBrackets (napiString a.host))) ∧
    ∀ input p, parse (napiString input) = .ok p → ∃ a : RelayAddress,
      (∀ w, (parseRelayAddress toString parse realm conversionError input).exec w = (.ok a, w)) ∧
      a.host = jsString p.host ∧ a.publicKey = p.publicKey ∧
      a.receivePort.value = some (p.receivePort.toNat : ℚ) ∧
      a.pushPort.value = some (p.pushPort.toNat : ℚ) ∧
      openedRelay parse (.inr a) = .ok p ∧
      ∀ w, (parseRelayAddress toString parse realm conversionError a.toString).exec w = (.ok a, w) := by
  refine ⟨fun a p h => ?_, fun input p h => ?_⟩
  · obtain ⟨hkey, hr, hp, hhost⟩ := parse_toString_inv hexact h
    refine ⟨hkey, hr, hp, ?_⟩
    rcases RelayAddress.printedHost_cases a.host with he | he
    · exact Or.inl (hhost.trans (by rw [he]))
    · exact Or.inr (hhost.trans (by rw [he, napiString_bracketed]))
  · obtain ⟨key, receive, push, hg⟩ := (hexact _ _).mp h
    have hlen : p.publicKey.length = 32 := by
      have := length_of_bytesOfHex hg.hex
      have := hg.length
      omega
    have hprinted : napiString (RelayAddress.printedHost p.typed.host) = p.host := by
      show napiString (RelayAddress.printedHost (jsString p.host)) = p.host
      rw [printedHost_of_hostText hg.host, napiString_jsString]
    have hagain : parse (napiString p.typed.toString) = .ok p :=
      parse_toString hexact hprinted hg.host hg.valid rfl hlen (value_port p.receivePort)
        (value_port p.pushPort)
    refine ⟨p.typed, fun w => ?_, rfl, rfl, value_port p.receivePort, value_port p.pushPort, hagain,
      fun w => ?_⟩
    · rw [parseRelayAddress_exec, h]
    · rw [parseRelayAddress_exec, hagain]

end Results

/-! ## 8. A parser of the grammar -/

open Classical in
/-- The parser that accepts the grammar. -/
noncomputable def grammarParser (valid : List Char → Prop) (input : List Char) :
    Except String CoreRelayAddress :=
  if h : ∃ p key receive push, Grammar valid input p key receive push then .ok h.choose
  else .error "invalid relay address"

theorem grammarParser_exact (valid : List Char → Prop) : Exact valid (grammarParser valid) := by
  intro input p
  unfold grammarParser
  constructor
  · intro h
    split at h
    · rename_i hex
      exact Except.ok.inj h ▸ hex.choose_spec
    · cases h
  · rintro ⟨key, receive, push, hg⟩
    have hex : ∃ p key receive push, Grammar valid input p key receive push :=
      ⟨p, key, receive, push, hg⟩
    obtain ⟨key', receive', push', hg'⟩ := hex.choose_spec
    rw [dif_pos hex, grammar_unique hg' hg]

/-- An address of a relay with the given host. -/
def sampleAddress (host : JsString) : RelayAddress :=
  .construct host (List.replicate 32 0xAB) (some (Binary64.ofU64 8800)) none

/-- A realm in which nothing happens. -/
def idleRealm : Realm (Host Unit) where
  instanceofError _ := pure false
  get _ _ := pure .undefined
  toString _ := pure ""
  callThen _ _ _ _ := pure ()

/-- A DNS name comes back as it is, an IPv6 host in brackets. -/
theorem relay_address_round_trip_hosts :
    ComesBack (fun _ => "") (grammarParser fun _ => True) idleRealm .null
      (sampleAddress (jsString "relay.example.com".toList)) (jsString "relay.example.com".toList)
      ⟨.empty, ()⟩ ∧
    ComesBack (fun _ => "") (grammarParser fun _ => True) idleRealm .null
      (sampleAddress (jsString "::1".toList)) (jsString "[::1]".toList) ⟨.empty, ()⟩ := by
  constructor
  · exact (relay_address_round_trip (fun _ => "") idleRealm .null ⟨.empty, ()⟩ (grammarParser_exact _)
      rfl (.name (by decide) (by decide) (by decide) (by decide) trivial) (by decide)
      (value_port 8800) (value_port 7701)).2.mpr (by decide)
  · have hback := (relay_address_round_trip (fun _ => "") idleRealm .null ⟨.empty, ()⟩
      (grammarParser_exact fun _ => True) (a := sampleAddress (jsString "::1".toList)) rfl
      (.ipv6 (by decide) (by decide) (by decide) (by decide) trivial) (by decide) (value_port 8800)
      (value_port 7701)).1
    have hbracketed : RelayAddress.bracketed (sampleAddress (jsString "::1".toList)).host =
        jsString "[::1]".toList := by decide
    rwa [if_pos (by decide), hbracketed] at hback

/-- **The IPv6 host `::1` comes back as `[::1]`.** -/
theorem ipv6_host_changes :
    ¬ ∀ (valid : List Char → Prop) (parse : List Char → Except String CoreRelayAddress)
      (a : RelayAddress) (host : List Char) (receivePort pushPort : UInt16), Exact valid parse →
      a.host = jsString host → Documented valid host → a.publicKey.length = 32 →
      a.receivePort.value = some (receivePort.toNat : ℚ) →
      a.pushPort.value = some (pushPort.toNat : ℚ) →
      ComesBack (fun _ => "") parse idleRealm .null a a.host ⟨.empty, ()⟩ := by
  intro hall
  obtain ⟨b, hb, hhost, -⟩ := hall (fun _ => True) (grammarParser fun _ => True)
    (sampleAddress (jsString "::1".toList)) "::1".toList 8800 7701 (grammarParser_exact _) rfl
    (.ipv6 (by decide) (by decide) (by decide) (by decide) trivial) (by decide) (value_port 8800)
    (value_port 7701)
  have hok : grammarParser (fun _ => True)
      (napiString (sampleAddress (jsString "::1".toList)).toString) =
        .ok ⟨inBrackets "::1".toList, List.replicate 32 0xAB, 8800, 7701⟩ :=
    parse_toString (grammarParser_exact _) (by decide) (hostText_inBrackets (by decide) (by decide))
      trivial rfl (by decide) (value_port 8800) (value_port 7701)
  have hexec := parseRelayAddress_exec (υ := Unit) (fun _ => "") (grammarParser fun _ => True)
    idleRealm .null (sampleAddress (jsString "::1".toList)).toString ⟨.empty, ()⟩
  rw [hok] at hexec
  obtain ⟨hb, -⟩ := Prod.mk.inj (hexec.symm.trans hb)
  rw [← Except.ok.inj hb] at hhost
  exact absurd hhost (by decide)

/-- The host `::1`, printed for `TrueSeal.open`, and what becomes of the text when it is parsed. -/
theorem printing_never_retargets_ipv6 : ∃ p a,
    openedRelay (grammarParser fun _ => True)
      (.inr (sampleAddress (jsString "::1".toList))) = .ok p ∧
    p.publicKey = List.replicate 32 0xAB ∧
    (p.host = "::1".toList ∨ p.host = inBrackets "::1".toList) ∧
    (∀ w, (parseRelayAddress (υ := Unit) (fun _ => "") (grammarParser fun _ => True) idleRealm .null
      (sampleAddress (jsString "::1".toList)).toString).exec w = (.ok a, w)) ∧
    openedRelay (grammarParser fun _ => True) (.inr a) = .ok p := by
  have hok : openedRelay (grammarParser fun _ => True)
      (.inr (sampleAddress (jsString "::1".toList))) =
        .ok ⟨inBrackets "::1".toList, List.replicate 32 0xAB, 8800, 7701⟩ :=
    parse_toString (grammarParser_exact _) (by decide) (hostText_inBrackets (by decide) (by decide))
      trivial rfl (by decide) (value_port 8800) (value_port 7701)
  obtain ⟨hprinted, hparsed⟩ := printing_never_retargets (υ := Unit) (fun _ => "") idleRealm .null
    (grammarParser_exact fun _ => True)
  obtain ⟨hkey, -, -, hhost⟩ := hprinted _ _ hok
  obtain ⟨a, ha, -, -, -, -, hopened, -⟩ := hparsed _ _ hok
  exact ⟨_, a, hok, hkey, hhost, ha, hopened⟩

/-- **A host that is no text is replaced**: the core is handed U+FFFD for a surrogate without a
    partner, and accepts it. -/
theorem unpaired_surrogate_replaced :
    ¬ ∀ (valid : List Char → Prop) (parse : List Char → Except String CoreRelayAddress)
      (a : RelayAddress) (p : CoreRelayAddress), Exact valid parse →
      openedRelay parse (.inr a) = .ok p →
      jsString p.host = a.host ∨ jsString p.host = RelayAddress.bracketed a.host := by
  intro hall
  have hok : openedRelay (grammarParser fun _ => True) (.inr (sampleAddress [0xD800])) =
      .ok ⟨[Utf16.replacement], List.replicate 32 0xAB, 8800, 7701⟩ :=
    parse_toString (grammarParser_exact _) (by decide)
      ⟨by decide, by decide, fun hc => absurd hc (by decide)⟩ trivial rfl (by decide)
      (value_port 8800) (value_port 7701)
  exact absurd (hall _ _ _ _ (grammarParser_exact _) hok) (by decide)

end TrueSealSync.Sdk
