import CrawlBoard.Proofs.Digits
import CrawlBoard.Proofs.Url.Escape
import CrawlBoard.Proofs.Url.HostText

namespace CrawlBoard.Url

open UrlEscape (Settled)

namespace Authority

/-- What every authority of a web address that was read is like. -/
structure OfWeb [DomainNames] (scheme : String) (authority : Authority) : Prop where
  host : authority.host.OfWeb
  username : Settled UrlEscape.user authority.username.toList
  password : ∀ password ∈ authority.password?,
    password.toList ≠ [] ∧ Settled UrlEscape.user password.toList
  port : ∀ port ∈ authority.port?, defaultPort? scheme ≠ some port

def userChars (authority : Authority) : List Char :=
  match authority.password? with
  | some password => authority.username.toList ++ ':' :: (password.toList ++ ['@'])
  | none => if authority.username.toList = [] then [] else authority.username.toList ++ ['@']

def portChars (authority : Authority) : List Char :=
  match authority.port? with
  | some port => ':' :: Nat.toDigits 10 port.toNat
  | none => []

def chars (authority : Authority) : List Char :=
  authority.userChars ++ (authority.host.text.toList ++ authority.portChars)

end Authority

theorem port_digits {scheme : String} {port : UInt16} (special : defaultPort? scheme ≠ some port) :
    Url.port scheme (':' :: Nat.toDigits 10 port.toNat) = .ok (some port) := by
  have decimal : (Nat.toDigits 10 port.toNat).all Char.isDigit = true :=
    List.all_eq_true.mpr fun _ => Nat.isDigit_of_mem_toDigits (by decide) (by decide)
  have bound : port.toNat < 65536 := port.toNat_lt
  have given : Nat.toDigits 10 port.toNat ≠ [] := Nat.toDigits_ne_nil
  simp only [Url.port, decimal, Digits.value_toDigits, bound, UInt16.ofNat_toNat, and_self, if_true,
    given, special, or_self, if_false]

theorem not_default_of_port {scheme : String} {text : List Char} {port : UInt16}
    (read : Url.port scheme text = .ok (some port)) : defaultPort? scheme ≠ some port := by
  unfold Url.port at read
  split at read
  · cases read
  · dsimp only at read
    split at read
    · split at read
      · cases read
      · rename_i other
        cases read
        exact fun same => other (.inr same)
    · cases read

theorem char_of_user {chars : List Char} (settled : Settled UrlEscape.user chars) {char : Char}
    (member : char ∈ chars) :
    0x20 < char.toNat ∧ endsAuthority true char = false ∧ char ≠ ':' ∧ char ≠ '@' := by
  obtain ⟨ascii, free⟩ := settled char member
  exact Utf8.of_ascii (fun char => UrlEscape.user (UInt8.ofNat char.toNat) = false →
    0x20 < char.toNat ∧ endsAuthority true char = false ∧ char ≠ ':' ∧ char ≠ '@') ascii
    (by decide) free

theorem char_of_host [DomainNames] {host : Host} (ofWeb : host.OfWeb) {char : Char}
    (member : char ∈ host.text.toList) :
    0x20 < char.toNat ∧ endsAuthority true char = false ∧ char ≠ '@' ∧ char ≠ '/' := by
  rcases ofWeb.mem_text member with name | mark
  · have ascii : char.toNat < 128 := by
      simp only [Host.isNameChar, Bool.and_eq_true, decide_eq_true_eq] at name
      exact name.1.1
    exact Utf8.of_ascii (fun char => Host.isNameChar char = true →
      0x20 < char.toNat ∧ endsAuthority true char = false ∧ char ≠ '@' ∧ char ≠ '/') ascii
      (by decide) name
  · simp only [List.mem_cons, List.not_mem_nil, or_false] at mark
    rcases mark with rfl | rfl | rfl <;> decide

theorem userOf_name {name : List Char} (settled : Settled UrlEscape.user name) :
    userOf name = (String.ofList name, none) := by
  have uncut : Search.cut? [':'] name = none :=
    Search.cut?_of_not_mem fun colon => (char_of_user settled colon).2.2.1 rfl
  simp only [userOf, uncut, settled.apply]

theorem userOf_password {name password : List Char} (settled : Settled UrlEscape.user name)
    (secret : Settled UrlEscape.user password) (given : password ≠ []) :
    userOf (name ++ ':' :: password) = (String.ofList name, some (String.ofList password)) := by
  have cut : Search.cut? [':'] (name ++ ':' :: password) = some (name, password) :=
    Search.cut?_singleton (fun colon => (char_of_user settled colon).2.2.1 rfl) password
  rw [userOf, cut]
  cases password with
  | nil => exact absurd rfl given
  | cons first rest => simp only [settled.apply, secret.apply]

theorem settled_userOf (text : List Char) :
    Settled UrlEscape.user (userOf text).1.toList ∧ ∀ password ∈ (userOf text).2,
      password.toList ≠ [] ∧ Settled UrlEscape.user password.toList := by
  have settled := UrlEscape.proper_user.settled_apply
  unfold userOf
  split
  · exact ⟨settled _, fun _ found => nomatch found⟩
  · exact ⟨settled _, fun _ found => nomatch found⟩
  · refine ⟨settled _, fun password found => ?_⟩
    rename_i notNil _
    cases found
    exact ⟨UrlEscape.apply_ne_nil _ notNil, settled _⟩

theorem cutLast?_append {mark : Char} {back : List Char} (missing : mark ∉ back)
    (front : List Char) : cutLast? mark (front ++ mark :: back) = some (front, back) := by
  have cut : Search.cut? [mark] (front ++ mark :: back).reverse =
      some (back.reverse, front.reverse) := by
    rw [List.reverse_append, List.reverse_cons, List.append_assoc]
    exact Search.cut?_singleton (by simpa using missing) _
  rw [cutLast?, cut]
  simp

theorem cutLast?_of_not_mem {mark : Char} {text : List Char} (missing : mark ∉ text) :
    cutLast? mark text = none := by
  rw [cutLast?, Search.cut?_of_not_mem (by simpa using missing), Option.map_none]

section Reading

variable [DomainNames]

def behindUser (scheme : String) (user : String × Option String) (address : List Char) :
    Except UrlError Authority := do
  let host ← Host.special (address.take (hostEnd false address))
  let portText := address.drop (hostEnd false address)
  if host = .domain "" ∧ (portText ≠ [] ∨ user ≠ ("", none)) then throw .emptyHost
  let port? ← port scheme portText
  return ⟨user.1, user.2, host, port?⟩

theorem authority_of_user (scheme : String) {text user address : List Char}
    (found : cutLast? '@' text = some (user, address)) :
    authority scheme true text = behindUser scheme (userOf user) address := by
  unfold authority
  rw [found]
  simp only [List.splitAt_eq, if_true]
  rfl

theorem authority_without_user (scheme : String) {text : List Char}
    (missing : cutLast? '@' text = none) :
    authority scheme true text = behindUser scheme ("", none) text := by
  unfold authority
  rw [missing]
  simp only [List.splitAt_eq, if_true]
  rfl

theorem ofWeb_of_behindUser [LawfulDomainNames] {scheme : String}
    {user : String × Option String} {address : List Char}
    {read : Authority} (parsed : behindUser scheme user address = .ok read)
    (username : Settled UrlEscape.user user.1.toList)
    (password : ∀ password ∈ user.2,
      password.toList ≠ [] ∧ Settled UrlEscape.user password.toList) : read.OfWeb scheme := by
  unfold behindUser at parsed
  cases special : Host.special (address.take (hostEnd false address)) with
  | error _ =>
      rw [special] at parsed
      cases parsed
  | ok host =>
      rw [special] at parsed
      simp only [bind, Except.bind] at parsed
      split at parsed
      · cases parsed
      cases known : port scheme (address.drop (hostEnd false address)) with
      | error _ =>
          rw [known] at parsed
          cases parsed
      | ok port? =>
          rw [known] at parsed
          cases parsed
          exact ⟨Host.ofWeb_of_special special, username, password, fun _ found =>
            not_default_of_port (known.trans (congrArg Except.ok found))⟩

theorem ofWeb_of_authority [LawfulDomainNames] {scheme : String} {text : List Char} {read : Authority}
    (parsed : authority scheme true text = .ok read) : read.OfWeb scheme := by
  cases found : cutLast? '@' text with
  | none =>
      rw [authority_without_user scheme found] at parsed
      exact ofWeb_of_behindUser parsed (fun _ member => nomatch member) fun _ member => nomatch member
  | some parts =>
      rw [authority_of_user scheme found] at parsed
      obtain ⟨username, password⟩ := settled_userOf parts.1
      exact ofWeb_of_behindUser parsed username password

end Reading

section Writing

variable [DomainNames] {scheme : String} {written : Authority} (ofWeb : written.OfWeb scheme)

include ofWeb

theorem host_ne_nil : written.host.text.toList ≠ [] := by
  intro none
  have read := ofWeb.host.special_text
  rw [none] at read
  cases read

theorem behindUser_address :
    behindUser scheme (written.username, written.password?)
      (written.host.text.toList ++ written.portChars) = .ok written := by
  have ends : ∀ char ∈ written.portChars.head?, char = ':' := by
    intro char found
    unfold Authority.portChars at found
    split at found <;> cases found
    rfl
  have known : port scheme written.portChars = .ok written.port? := by
    unfold Authority.portChars
    split
    · rename_i port given
      rw [port_digits (ofWeb.port port given), given]
    · rename_i none
      rw [none]
      rfl
  have named : written.host ≠ .domain "" := fun none => host_ne_nil ofWeb (none ▸ rfl)
  unfold behindUser
  rw [ofWeb.host.hostEnd_text ends, List.take_left, List.drop_left, ofWeb.host.special_text]
  simp only [bind, Except.bind, named, false_and, if_false, known]
  rfl

theorem not_mem_address : '@' ∉ written.host.text.toList ++ written.portChars := by
  intro member
  rcases List.mem_append.mp member with inHost | inPort
  · exact (char_of_host ofWeb.host inHost).2.2.1 rfl
  · unfold Authority.portChars at inPort
    split at inPort
    · rcases List.mem_cons.mp inPort with mark | digit
      · cases mark
      · have decimal := Nat.isDigit_of_mem_toDigits (by decide) (by decide) digit
        cases decimal
    · cases inPort

theorem authority_chars : authority scheme true written.chars = .ok written := by
  have apart := not_mem_address ofWeb
  rw [← behindUser_address ofWeb]
  unfold Authority.chars Authority.userChars
  split
  · rename_i password given
    obtain ⟨notNil, secret⟩ := ofWeb.password password given
    rw [List.append_assoc, List.cons_append, List.append_assoc, List.singleton_append,
      ← List.cons_append, ← List.append_assoc, authority_of_user scheme (cutLast?_append apart _),
      userOf_password ofWeb.username secret notNil, given]
    simp
  · rename_i none
    split
    · rename_i nobody
      rw [List.nil_append, authority_without_user scheme (cutLast?_of_not_mem apart), none,
        String.toList_eq_nil_iff.mp nobody]
    · rw [List.append_assoc, List.singleton_append,
        authority_of_user scheme (cutLast?_append apart _), userOf_name ofWeb.username, none]
      simp

theorem char_of_authority {char : Char} (member : char ∈ written.chars) :
    0x20 < char.toNat ∧ endsAuthority true char = false := by
  have ofUser {chars : List Char} (settled : Settled UrlEscape.user chars) (member : char ∈ chars) :=
    (char_of_user settled member).imp_right And.left
  have ofMark {mark : Char} (listed : mark ∈ [':', '@']) :
      0x20 < mark.toNat ∧ endsAuthority true mark = false := by
    revert mark
    decide
  rcases List.mem_append.mp member with inUser | inAddress
  · unfold Authority.userChars at inUser
    split at inUser
    · rename_i password given
      rcases List.mem_append.mp inUser with name | inUser
      · exact ofUser ofWeb.username name
      · rcases List.mem_cons.mp inUser with rfl | inUser
        · exact ofMark (by decide)
        · rcases List.mem_append.mp inUser with secret | mark
          · exact ofUser (ofWeb.password password given).2 secret
          · exact ofMark (List.mem_cons_of_mem _ mark)
    · split at inUser
      · cases inUser
      · rcases List.mem_append.mp inUser with name | mark
        · exact ofUser ofWeb.username name
        · exact ofMark (List.mem_cons_of_mem _ mark)
  · rcases List.mem_append.mp inAddress with inHost | inPort
    · exact (char_of_host ofWeb.host inHost).imp_right And.left
    · unfold Authority.portChars at inPort
      split at inPort
      · rcases List.mem_cons.mp inPort with rfl | digit
        · exact ofMark (by decide)
        · obtain ⟨value, small, rfl⟩ := Host.mem_toDigits (by decide) digit
          exact (by decide : ∀ value < 10, 0x20 < (Nat.digitChar value).toNat ∧
            endsAuthority true (Nat.digitChar value) = false) value small
      · cases inPort

theorem chars_ne_nil : written.chars ≠ [] := fun none =>
  host_ne_nil ofWeb (List.append_eq_nil_iff.mp (List.append_eq_nil_iff.mp none).2).1

end Writing

end CrawlBoard.Url
