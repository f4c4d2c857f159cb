import DeviceHub.Broker
import DeviceHub.Proofs.Decimal.Digits
import DeviceHub.Proofs.Text.Ends

/-!
# URLs of brokers

A URL is taken apart in steps: blanks and a scheme are dropped, a further scheme is refused, slashes at
the end are dropped, and the port is split off at the last colon.

* `contains_iff`             a text is contained where it is an infix;
* `unmarked_port`            no mark of a scheme comes about by a port;
* `splitLastColon?_port`, `splitLastColon?_plain`, `port?_digits`   the parts of a host with a port;
* `Address.ofHostPort?_host` what is read has a host and a port;
* `Address.ofUrl?_scheme`    a URL is read as what follows its scheme;
* `Address.ofUrl?_pad`       blanks around a URL and slashes at its end are dropped;
* `Address.ofUrl?_again`     an address is read again from its host and its port;
* `Address.urls_have_a_normal_form`   an address is read back from its URL, and a host and a port are
                             read with blanks around them and slashes behind.
-/

namespace DeviceHub.Broker

/-! ## The mark of a scheme -/

theorem contains_iff {part cs : List Char} : contains part cs = true ↔ part <:+: cs := by
  induction cs with
  | nil =>
    unfold contains
    rw [List.isEmpty_iff, List.infix_nil]
  | cons c cs ih =>
    unfold contains
    rw [Bool.or_eq_true, ih, List.isPrefixOf_iff_prefix, List.infix_cons_iff]

/-- what stands between a scheme and what follows it -/
def mark : List Char := [':', '/', '/']

theorem unmarked_of_not_mem {cs : List Char} (h : ':' ∉ cs) : ¬ mark <:+: cs := fun hin =>
  h (hin.subset List.mem_cons_self)

theorem unmarked_port {cs port : List Char} (hcs : ¬ mark <:+: cs) (hport : ':' ∉ port)
    (hhead : port.head? ≠ some '/') : ¬ mark <:+: cs ++ ':' :: port := by
  have hnext : ¬ ['/', '/'] <+: port := by
    rintro ⟨rest, rfl⟩
    exact hhead rfl
  induction cs with
  | nil =>
    rw [List.nil_append, List.infix_cons_iff, not_or]
    refine ⟨fun hstart => ?_, unmarked_of_not_mem hport⟩
    exact hnext (List.cons_prefix_cons.mp hstart).2
  | cons c cs ih =>
    rw [List.infix_cons_iff, not_or] at hcs
    rw [List.cons_append, List.infix_cons_iff, not_or]
    refine ⟨fun hstart => ?_, ih hcs.2⟩
    -- the colon before the port is no slash, so a mark that begins before it ends before it
    obtain ⟨rfl, hslashes⟩ := List.cons_prefix_cons.mp hstart
    match cs, hslashes, hcs with
    | [], h, _ => exact absurd (List.cons_prefix_cons.mp h).1 (by decide)
    | [_], h, _ =>
      exact absurd (List.cons_prefix_cons.mp (List.cons_prefix_cons.mp h).2).1 (by decide)
    | a :: b :: cs, h, hcs =>
      obtain ⟨rfl, hslash⟩ := List.cons_prefix_cons.mp h
      obtain ⟨rfl, -⟩ := List.cons_prefix_cons.mp hslash
      exact hcs.1 ⟨cs, rfl⟩

/-! ## Hosts and ports -/

section
variable {host port : List Char}

theorem splitLastColon?_port (h : ':' ∉ port) :
    splitLastColon? (host ++ ':' :: port) = some (host, port) := by
  have hreverse : ':' ∉ port.reverse := mt List.mem_reverse.mp h
  have htail : ((host ++ ':' :: port).reverse.takeWhile (· ≠ ':')).reverse = port := by
    rw [List.reverse_append, List.reverse_cons, List.append_assoc, List.singleton_append,
      takeWhile_ne_append hreverse, List.reverse_reverse]
  unfold splitLastColon?
  simp only [htail, List.length_append, List.length_cons]
  rw [if_pos (by omega)]
  have hlength : host.length + (port.length + 1) - port.length - 1 = host.length := by omega
  rw [hlength, List.take_left]

theorem splitLastColon?_plain (h : ':' ∉ host) : splitLastColon? host = none := by
  have hreverse : ':' ∉ host.reverse := mt List.mem_reverse.mp h
  unfold splitLastColon?
  simp only [takeWhile_ne hreverse, List.reverse_reverse]
  exact if_neg (Nat.lt_irrefl _)

theorem splitLastColon?_isPrefix {cs : List Char} (h : splitLastColon? cs = some (host, port)) :
    host <+: cs := by
  unfold splitLastColon? at h
  simp only at h
  split at h
  · cases h
    exact List.take_prefix _ _
  · cases h

theorem port?_digits {p : UInt16} (h : p ≠ 0) : port? (Decimal.digits p.toNat) = some p := by
  have hpos : 0 < p.toNat := Nat.pos_of_ne_zero fun hzero => h (UInt16.toNat_inj.mp hzero)
  have hlt : p.toNat < 0x10000 := p.toNat_lt
  unfold port?
  rw [Decimal.unsigned?_digits]
  show (if 0 < p.toNat ∧ p.toNat < 0x10000 then some (UInt16.ofNat p.toNat) else none) = some p
  rw [if_pos ⟨hpos, hlt⟩, UInt16.ofNat_toNat]

theorem port?_ne_zero {p : UInt16} (h : port? port = some p) : p ≠ 0 := by
  obtain ⟨n, -, hn⟩ := Option.bind_eq_some_iff.mp h
  split at hn
  · rename_i hrange
    cases hn
    intro hzero
    have htoNat := congrArg UInt16.toNat hzero
    rw [UInt16.toNat_ofNat_of_lt' hrange.2] at htoNat
    exact absurd htoNat hrange.1.ne'
  · cases hn

theorem plain_of_mem_digits {n : Nat} {c : Char} (h : c ∈ Decimal.digits n) :
    Text.isBlankChar c = false ∧ c ≠ ':' ∧ c ≠ '/' := by
  have hdigit := Decimal.isDigit_of_mem_digits h
  refine ⟨?_, ?_, ?_⟩
  · unfold Decimal.isDigit at hdigit
    rw [Bool.and_eq_true, decide_eq_true_iff, decide_eq_true_iff] at hdigit
    have hlow : 48 ≤ c.toNat := hdigit.1
    have hhigh : c.toNat ≤ 57 := hdigit.2
    simp [Text.isBlankChar, Text.blankRanges]
    omega
  · rintro rfl
    exact absurd hdigit (by decide)
  · rintro rfl
    exact absurd hdigit (by decide)

theorem colon_not_mem_digits (n : Nat) : ':' ∉ Decimal.digits n := fun h =>
  (plain_of_mem_digits h).2.1 rfl

namespace Address

theorem ofHostPort?_port (hne : host ≠ []) {p : UInt16} (hp : p ≠ 0) :
    ofHostPort? (host ++ ':' :: Decimal.digits p.toNat) = some ⟨String.ofList host, p⟩ := by
  unfold ofHostPort?
  rw [splitLastColon?_port (colon_not_mem_digits _)]
  show (port? (Decimal.digits p.toNat)).bind _ = _
  rw [port?_digits hp]
  exact if_neg (by rwa [List.isEmpty_iff])

theorem ofHostPort?_plain (hne : host ≠ []) (h : ':' ∉ host) :
    ofHostPort? host = some ⟨String.ofList host, defaultPort⟩ := by
  unfold ofHostPort?
  rw [splitLastColon?_plain h]
  exact if_neg (by rwa [List.isEmpty_iff])

theorem ofHostPort?_host {cs : List Char} {a : Address} (h : ofHostPort? cs = some a) :
    a.host.toList ≠ [] ∧ a.port ≠ 0 ∧ a.host.toList <+: cs := by
  unfold ofHostPort? at h
  split at h
  · rename_i host port hsplit
    obtain ⟨p, hp, hsome⟩ := Option.bind_eq_some_iff.mp h
    split at hsome
    · cases hsome
    · rename_i hne
      cases hsome
      rw [String.toList_ofList]
      exact ⟨fun hempty => hne (List.isEmpty_iff.mpr hempty), port?_ne_zero hp,
        splitLastColon?_isPrefix hsplit⟩
  · split at h
    · cases h
    · rename_i hne
      cases h
      rw [String.toList_ofList]
      exact ⟨fun hempty => hne (List.isEmpty_iff.mpr hempty), (by decide : defaultPort ≠ 0),
        List.prefix_rfl⟩

end Address

end

/-! ## Schemes -/

theorem trimSlashes_isPrefix (cs : List Char) : trimSlashes cs <+: cs := List.rdropWhile_prefix _ cs

theorem trimSlashes_replicate {cs : List Char} (h : cs.getLast? ≠ some '/') (n : Nat) :
    trimSlashes (cs ++ List.replicate n '/') = cs := by
  refine dropWhile_pad_end (fun c hc => decide_eq_true (List.eq_of_mem_replicate hc)) fun c hc => ?_
  refine decide_eq_false ?_
  rintro rfl
  exact h hc

theorem colon_not_mem_slashes {cs : List Char} (h : ':' ∉ cs) (n : Nat) :
    ':' ∉ cs ++ List.replicate n '/' := by
  rw [List.mem_append, not_or]
  exact ⟨h, fun hslash => absurd (List.eq_of_mem_replicate hslash) (by decide)⟩

theorem dropStart?_append (start : String) (rest : List Char) :
    dropStart? start (start.toList ++ rest) = some rest := by
  unfold dropStart?
  rw [if_pos (List.isPrefixOf_iff_prefix.mpr (List.prefix_append _ _)), ← String.length_toList,
    List.drop_left]

theorem dropStart?_eq_none {start : String} {cs : List Char} (h : ¬ start.toList <+: cs) :
    dropStart? start cs = none :=
  if_neg fun hstart => h (List.isPrefixOf_iff_prefix.mp hstart)

def schemes : List String := ["", "tcp://", "mqtt://"]

section
variable {scheme : String} (hscheme : scheme ∈ schemes)
include hscheme

theorem dropStart?_scheme {rest : List Char} (hmark : ¬ mark <:+: rest) :
    let cs := scheme.toList ++ rest
    ((dropStart? "tcp://" cs).or (dropStart? "mqtt://" cs)).getD cs = rest := by
  intro cs
  have hmarked : ∀ s ∈ ["tcp://", "mqtt://"], mark <:+: s.toList := by decide
  have hnone : ∀ s ∈ ["tcp://", "mqtt://"], dropStart? s rest = none := fun s hs =>
    dropStart?_eq_none fun h => hmark ((hmarked s hs).trans h.isInfix)
  rcases List.mem_cons.mp hscheme with rfl | htail
  · show ((dropStart? "tcp://" rest).or (dropStart? "mqtt://" rest)).getD rest = rest
    rw [hnone _ (by decide), hnone _ (by decide)]
    rfl
  rcases List.mem_cons.mp htail with rfl | hlast
  · rw [dropStart?_append]
    rfl
  · obtain rfl := List.mem_singleton.mp hlast
    have htcp : ¬ "tcp://".toList <+: cs := fun h =>
      absurd (List.cons_prefix_cons.mp h).1 (by decide)
    rw [dropStart?_eq_none htcp, dropStart?_append]
    rfl

theorem head?_scheme {cs : List Char} (hne : cs ≠ [])
    (hhead : scheme = "" → ∀ c ∈ cs.head?, Text.isBlankChar c = false) (rest : List Char) :
    ∀ c ∈ (scheme.toList ++ (cs ++ rest)).head?, Text.isBlankChar c = false := by
  rcases List.mem_cons.mp hscheme with rfl | htail
  · show ∀ c ∈ (cs ++ rest).head?, _
    rw [List.head?_append_of_ne_nil cs hne]
    exact hhead rfl
  · have hletters : ∀ s ∈ ["tcp://", "mqtt://"], s.toList.head? = some 't' ∨
        s.toList.head? = some 'm' := by decide
    rcases hletters scheme htail with h | h
    all_goals
      rw [List.head?_append, h]
      rintro c ⟨⟩
      decide

end

theorem getLast?_slashes {cs : List Char} (h : ∀ c ∈ cs.getLast?, Text.isBlankChar c = false)
    (n : Nat) : ∀ c ∈ (cs ++ List.replicate n '/').getLast?, Text.isBlankChar c = false := by
  cases n with
  | zero => rwa [List.replicate_zero, List.append_nil]
  | succ n =>
    rw [List.replicate_succ', ← List.append_assoc, List.getLast?_concat]
    rintro c ⟨⟩
    decide

namespace Address

theorem of_url {url : String} {a : Address} (h : ofUrl? url = some a) :
    a.host.toList ≠ [] ∧ a.port ≠ 0 ∧ ¬ mark <:+: a.host.toList := by
  unfold ofUrl? at h
  simp only at h
  split at h
  · cases h
  · rename_i hcontains
    obtain ⟨hhost, hport, hstart⟩ := ofHostPort?_host h
    refine ⟨hhost, hport, fun hmark => hcontains (contains_iff.mpr ?_)⟩
    exact hmark.trans (hstart.trans (trimSlashes_isPrefix _)).isInfix

section
variable {scheme : String} (hscheme : scheme ∈ schemes) {url : String}
include hscheme

theorem ofUrl?_scheme {rest : List Char} (hmark : ¬ mark <:+: rest)
    (htrim : Text.trimChars url.toList = scheme.toList ++ rest) :
    ofUrl? url = ofHostPort? (trimSlashes rest) := by
  have hcontains : contains [':', '/', '/'] rest = false :=
    Bool.eq_false_iff.mpr fun h => hmark (contains_iff.mp h)
  unfold ofUrl?
  simp only [htrim, Option.orElse_eq_orElse, Option.orElse_eq_or]
  rw [dropStart?_scheme hscheme hmark, hcontains]
  rfl

theorem ofUrl?_pad {before body after : List Char} {n : Nat}
    (hbefore : ∀ c ∈ before, Text.isBlankChar c = true)
    (hafter : ∀ c ∈ after, Text.isBlankChar c = true) (hne : body ≠ [])
    (hmark : ¬ mark <:+: body ++ List.replicate n '/')
    (hhead : scheme = "" → ∀ c ∈ body.head?, Text.isBlankChar c = false)
    (hlast : ∀ c ∈ body.getLast?, Text.isBlankChar c = false ∧ c ≠ '/')
    (hurl : url.toList = before ++ (scheme.toList ++ (body ++ List.replicate n '/')) ++ after) :
    ofUrl? url = ofHostPort? body := by
  have hrest : body ++ List.replicate n '/' ≠ [] := List.append_ne_nil_of_left_ne_nil hne _
  have hend : ∀ c ∈ (scheme.toList ++ (body ++ List.replicate n '/')).getLast?,
      Text.isBlankChar c = false := by
    rw [List.getLast?_append_of_ne_nil _ hrest]
    exact getLast?_slashes (fun c hc => (hlast c hc).1) n
  have htrim : Text.trimChars url.toList = scheme.toList ++ (body ++ List.replicate n '/') := by
    rw [hurl]
    exact Text.trimChars_pad hbefore hafter (List.append_ne_nil_of_right_ne_nil _ hrest)
      (head?_scheme hscheme hne hhead _) hend
  rw [ofUrl?_scheme hscheme hmark htrim, trimSlashes_replicate fun h => (hlast '/' h).2 rfl]

end

/-! ## The normal form -/

section
variable {scheme : String} (hscheme : scheme ∈ schemes) {before host after : List Char} {n : Nat}
  (hbefore : ∀ c ∈ before, Text.isBlankChar c = true)
  (hafter : ∀ c ∈ after, Text.isBlankChar c = true) (hne : host ≠ [])
  (hhead : scheme = "" → ∀ c ∈ host.head?, Text.isBlankChar c = false) {url : String}
include hscheme hbefore hafter hne hhead

theorem ofUrl?_port (hmark : ¬ mark <:+: host) {p : UInt16} (hp : p ≠ 0)
    (hurl : url.toList = before ++ (scheme.toList ++
      (host ++ ':' :: Decimal.digits p.toNat ++ List.replicate n '/')) ++ after) :
    ofUrl? url = some ⟨String.ofList host, p⟩ := by
  have hdigits := Decimal.digits_ne_nil p.toNat
  have hcolon : ':' ∉ Decimal.digits p.toNat ++ List.replicate n '/' :=
    colon_not_mem_slashes (colon_not_mem_digits _) n
  have hdigit : (Decimal.digits p.toNat ++ List.replicate n '/').head? ≠ some '/' := by
    rw [List.head?_append_of_ne_nil _ hdigits]
    exact fun h => (plain_of_mem_digits (List.mem_of_head? h)).2.2 rfl
  have hlast : ∀ c ∈ (host ++ ':' :: Decimal.digits p.toNat).getLast?,
      Text.isBlankChar c = false ∧ c ≠ '/' := by
    rw [List.getLast?_append_of_ne_nil _ (List.cons_ne_nil _ _), List.getLast?_cons_of_ne_nil hdigits]
    intro c hc
    obtain ⟨hblank, -, hslash⟩ := plain_of_mem_digits (List.mem_of_getLast? hc)
    exact ⟨hblank, hslash⟩
  rw [ofUrl?_pad hscheme hbefore hafter (List.append_ne_nil_of_left_ne_nil hne _) ?_ ?_ hlast hurl,
    ofHostPort?_port hne hp]
  · rw [List.append_assoc]
    exact unmarked_port hmark hcolon hdigit
  · rwa [List.head?_append_of_ne_nil _ hne]

theorem ofUrl?_plain (hcolon : ':' ∉ host)
    (hlast : ∀ c ∈ host.getLast?, Text.isBlankChar c = false ∧ c ≠ '/')
    (hurl : url.toList =
      before ++ (scheme.toList ++ (host ++ List.replicate n '/')) ++ after) :
    ofUrl? url = some ⟨String.ofList host, defaultPort⟩ := by
  have hmark : ¬ mark <:+: host ++ List.replicate n '/' :=
    unmarked_of_not_mem (colon_not_mem_slashes hcolon n)
  rw [ofUrl?_pad hscheme hbefore hafter hne hmark hhead hlast hurl, ofHostPort?_plain hne hcolon]

end

theorem ofUrl?_again {url : String} {a : Address} (h : ofUrl? url = some a) {scheme : String}
    (hscheme : scheme ∈ ["tcp://", "mqtt://"]) :
    ofUrl? (scheme ++ a.host ++ ":" ++ Decimal.natural a.port.toNat) = some a := by
  obtain ⟨hhost, hport, hmark⟩ := of_url h
  have hnonempty : scheme ≠ "" := by
    rintro rfl
    exact absurd hscheme (by decide)
  have hurl : (scheme ++ a.host ++ ":" ++ Decimal.natural a.port.toNat).toList = [] ++
      (scheme.toList ++ (a.host.toList ++ ':' :: Decimal.digits a.port.toNat ++
        List.replicate 0 '/')) ++ [] := by
    simp [Decimal.natural]
  rw [ofUrl?_port (List.mem_cons_of_mem "" hscheme) (List.forall_mem_nil _) (List.forall_mem_nil _)
    hhost (absurd · hnonempty) hmark hport hurl, String.ofList_toList]

/-- What is read from a URL has a host, without a mark of a scheme in it, and a port.  It is read again
from its host and its port behind either scheme.

A host without a colon, blanks at its ends or a slash at its end is read from every URL that it is in,
with a port or without, with a scheme or without, with blanks around it and with slashes behind it. -/
theorem urls_have_a_normal_form :
    (∀ url a, ofUrl? url = some a →
      a.host ≠ "" ∧ 1 ≤ a.port.toNat ∧ a.port.toNat ≤ 65535 ∧
      ¬ "://".toList <:+: a.host.toList ∧
      ∀ scheme ∈ ["tcp://", "mqtt://"],
        ofUrl? (scheme ++ a.host ++ ":" ++ Decimal.natural a.port.toNat) = some a) ∧
    ∀ (host : String) (port : UInt16), host ≠ "" → ':' ∉ host.toList → Text.trim host = host →
      host.toList.getLast? ≠ some '/' → port ≠ 0 →
      ∀ scheme ∈ schemes, ∀ before after : String,
        (∀ c ∈ before.toList, Text.isBlankChar c = true) →
        (∀ c ∈ after.toList, Text.isBlankChar c = true) →
        ∀ n, let slashes := String.ofList (List.replicate n '/')
          ofUrl? (before ++ scheme ++ host ++ ":" ++ Decimal.natural port.toNat ++ slashes ++ after) =
            some ⟨host, port⟩ ∧
          ofUrl? (before ++ scheme ++ host ++ slashes ++ after) = some ⟨host, 1883⟩ := by
  constructor
  · intro url a h
    obtain ⟨hhost, hport, hmark⟩ := of_url h
    have hpos : 1 ≤ a.port.toNat :=
      Nat.pos_of_ne_zero fun hzero => hport (UInt16.toNat_inj.mp hzero)
    exact ⟨fun hempty => hhost (hempty ▸ rfl), hpos, Nat.le_of_lt_succ a.port.toNat_lt, hmark,
      fun scheme hscheme => ofUrl?_again h hscheme⟩
  · intro host port hempty hcolon htrim hslash hport scheme hscheme before after hbefore hafter n
    have hne : host.toList ≠ [] := fun h => hempty (String.toList_injective h)
    have hchars : Text.trimChars host.toList = host.toList := by
      rw [← String.toList_ofList (l := Text.trimChars _)]
      exact congrArg String.toList htrim
    have hhead : ∀ c ∈ host.toList.head?, Text.isBlankChar c = false :=
      hchars ▸ Text.head?_trimChars
    have hlast : ∀ c ∈ host.toList.getLast?, Text.isBlankChar c = false ∧ c ≠ '/' := fun c hc =>
      ⟨(hchars ▸ Text.getLast?_trimChars) c hc, fun h => hslash (h ▸ hc)⟩
    constructor
    · have hurl : (before ++ scheme ++ host ++ ":" ++ Decimal.natural port.toNat ++
          String.ofList (List.replicate n '/') ++ after).toList = before.toList ++
          (scheme.toList ++ (host.toList ++ ':' :: Decimal.digits port.toNat ++
            List.replicate n '/')) ++ after.toList := by
        simp [Decimal.natural]
      rw [ofUrl?_port hscheme hbefore hafter hne (fun _ => hhead) (unmarked_of_not_mem hcolon) hport
        hurl, String.ofList_toList]
    · have hurl : (before ++ scheme ++ host ++ String.ofList (List.replicate n '/') ++ after).toList =
          before.toList ++ (scheme.toList ++ (host.toList ++ List.replicate n '/')) ++
            after.toList := by
        simp
      rw [ofUrl?_plain hscheme hbefore hafter hne (fun _ => hhead) hcolon hlast hurl,
        String.ofList_toList]
      rfl

/-- A host may have colons of its own before the port, and blanks and slashes inside. -/
theorem urls_have_a_normal_form_padded :
    ofUrl? " mqtt://[::1]:1884//" = some ⟨"[::1]", 1884⟩ ∧
      ofUrl? ("tcp://" ++ "[::1]" ++ ":" ++ Decimal.natural 1884) = some ⟨"[::1]", 1884⟩ ∧
      ofUrl? ("\u00a0" ++ "mqtt://" ++ "a b/c" ++ ":" ++ Decimal.natural 8883 ++ "//" ++ "\t\n") =
        some ⟨"a b/c", 8883⟩ := by
  have hread : ofUrl? " mqtt://[::1]:1884//" = some ⟨"[::1]", 1884⟩ := by decide
  obtain ⟨-, -, -, -, hagain⟩ := urls_have_a_normal_form.1 _ _ hread
  obtain ⟨hpadded, -⟩ := urls_have_a_normal_form.2 "a b/c" 8883 (by decide) (by decide) (by decide)
    (by decide) (by decide) "mqtt://" (by decide) "\u00a0" "\t\n" (List.all_eq_true.mp (by decide))
    (List.all_eq_true.mp (by decide)) 2
  exact ⟨hread, hagain "tcp://" (by decide), hpadded⟩

end Address

end DeviceHub.Broker
