import WebTransport.Rust.Str
import WebTransport.Qpack.Prefix

open rust rust.Outcome

namespace wt_proto.qpack

def PREDEFINED_HEADERS : List (String × String) := [
  (":authority", ""),
  (":path", "/"),
  ("age", "0"),
  ("content-disposition", ""),
  ("content-length", "0"),
  ("cookie", ""),
  ("date", ""),
  ("etag", ""),
  ("if-modified-since", ""),
  ("if-none-match", ""),
  ("last-modified", ""),
  ("link", ""),
  ("location", ""),
  ("referer", ""),
  ("set-cookie", ""),
  (":method", "CONNECT"),
  (":method", "DELETE"),
  (":method", "GET"),
  (":method", "HEAD"),
  (":method", "OPTIONS"),
  (":method", "POST"),
  (":method", "PUT"),
  (":scheme", "http"),
  (":scheme", "https"),
  (":status", "103"),
  (":status", "200"),
  (":status", "304"),
  (":status", "404"),
  (":status", "503"),
  ("accept", "*/*"),
  ("accept", "application/dns-message"),
  ("accept-encoding", "gzip, deflate, br"),
  ("accept-ranges", "bytes"),
  ("access-control-allow-headers", "cache-control"),
  ("access-control-allow-headers", "content-type"),
  ("access-control-allow-origin", "*"),
  ("cache-control", "max-age=0"),
  ("cache-control", "max-age=2592000"),
  ("cache-control", "max-age=604800"),
  ("cache-control", "no-cache"),
  ("cache-control", "no-store"),
  ("cache-control", "public, max-age=31536000"),
  ("content-encoding", "br"),
  ("content-encoding", "gzip"),
  ("content-type", "application/dns-message"),
  ("content-type", "application/javascript"),
  ("content-type", "application/json"),
  ("content-type", "application/x-www-form-urlencoded"),
  ("content-type", "image/gif"),
  ("content-type", "image/jpeg"),
  ("content-type", "image/png"),
  ("content-type", "text/css"),
  ("content-type", "text/html; charset=utf-8"),
  ("content-type", "text/plain"),
  ("content-type", "text/plain;charset=utf-8"),
  ("range", "bytes=0-"),
  ("strict-transport-security", "max-age=31536000"),
  ("strict-transport-security", "max-age=31536000; includesubdomains"),
  ("strict-transport-security", "max-age=31536000; includesubdomains; preload"),
  ("vary", "accept-encoding"),
  ("vary", "origin"),
  ("x-content-type-options", "nosniff"),
  ("x-xss-protection", "1; mode=block"),
  (":status", "100"),
  (":status", "204"),
  (":status", "206"),
  (":status", "302"),
  (":status", "400"),
  (":status", "403"),
  (":status", "421"),
  (":status", "425"),
  (":status", "500"),
  ("accept-language", ""),
  ("access-control-allow-credentials", "FALSE"),
  ("access-control-allow-credentials", "TRUE"),
  ("access-control-allow-headers", "*"),
  ("access-control-allow-methods", "get"),
  ("access-control-allow-methods", "get, post, options"),
  ("access-control-allow-methods", "options"),
  ("access-control-expose-headers", "content-length"),
  ("access-control-request-headers", "content-type"),
  ("access-control-request-method", "get"),
  ("access-control-request-method", "post"),
  ("alt-svc", "clear"),
  ("authorization", ""),
  ("content-security-policy", "script-src 'none'; object-src 'none'; base-uri 'none'"),
  ("early-data", "1"),
  ("expect-ct", ""),
  ("forwarded", ""),
  ("if-range", ""),
  ("origin", ""),
  ("purpose", "prefetch"),
  ("server", ""),
  ("timing-allow-origin", "*"),
  ("upgrade-insecure-requests", "1"),
  ("user-agent", ""),
  ("x-forwarded-for", ""),
  ("x-frame-options", "deny"),
  ("x-frame-options", "sameorigin")]

/-- The arms of the `match` in `StaticTable::find`, in order. -/
def find_arms : List ((String × String) × Nat) := [
  ((":authority", ""), 0),
  ((":path", "/"), 1),
  (("age", "0"), 2),
  (("content-disposition", ""), 3),
  (("content-length", "0"), 4),
  (("cookie", ""), 5),
  (("date", ""), 6),
  (("etag", ""), 7),
  (("if-modified-since", ""), 8),
  (("if-none-match", ""), 9),
  (("last-modified", ""), 10),
  (("link", ""), 11),
  (("location", ""), 12),
  (("referer", ""), 13),
  (("set-cookie", ""), 14),
  ((":method", "CONNECT"), 15),
  ((":method", "DELETE"), 16),
  ((":method", "GET"), 17),
  ((":method", "HEAD"), 18),
  ((":method", "OPTIONS"), 19),
  ((":method", "POST"), 20),
  ((":method", "PUT"), 21),
  ((":scheme", "http"), 22),
  ((":scheme", "https"), 23),
  ((":status", "103"), 24),
  ((":status", "200"), 25),
  ((":status", "304"), 26),
  ((":status", "404"), 27),
  ((":status", "503"), 28),
  (("accept", "*/*"), 29),
  (("accept", "application/dns-message"), 30),
  (("accept-encoding", "gzip, deflate, br"), 31),
  (("accept-ranges", "bytes"), 32),
  (("access-control-allow-headers", "cache-control"), 33),
  (("access-control-allow-headers", "content-type"), 34),
  (("access-control-allow-origin", "*"), 35),
  (("cache-control", "max-age=0"), 36),
  (("cache-control", "max-age=2592000"), 37),
  (("cache-control", "max-age=604800"), 38),
  (("cache-control", "no-cache"), 39),
  (("cache-control", "no-store"), 40),
  (("cache-control", "public, max-age=31536000"), 41),
  (("content-encoding", "br"), 42),
  (("content-encoding", "gzip"), 43),
  (("content-type", "application/dns-message"), 44),
  (("content-type", "application/javascript"), 45),
  (("content-type", "application/json"), 46),
  (("content-type", "application/x-www-form-urlencoded"), 47),
  (("content-type", "image/gif"), 48),
  (("content-type", "image/jpeg"), 49),
  (("content-type", "image/png"), 50),
  (("content-type", "text/css"), 51),
  (("content-type", "text/html; charset=utf-8"), 52),
  (("content-type", "text/plain"), 53),
  (("content-type", "text/plain;charset=utf-8"), 54),
  (("range", "bytes=0-"), 55),
  (("strict-transport-security", "max-age=31536000"), 56),
  (("strict-transport-security", "max-age=31536000; includesubdomains"), 57),
  (("strict-transport-security", "max-age=31536000; includesubdomains; preload"), 58),
  (("vary", "accept-encoding"), 59),
  (("vary", "origin"), 60),
  (("x-content-type-options", "nosniff"), 61),
  (("x-xss-protection", "1; mode=block"), 62),
  ((":status", "100"), 63),
  ((":status", "204"), 64),
  ((":status", "206"), 65),
  ((":status", "302"), 66),
  ((":status", "400"), 67),
  ((":status", "403"), 68),
  ((":status", "421"), 69),
  ((":status", "425"), 70),
  ((":status", "500"), 71),
  (("accept-language", ""), 72),
  (("access-control-allow-credentials", "FALSE"), 73),
  (("access-control-allow-credentials", "TRUE"), 74),
  (("access-control-allow-headers", "*"), 75),
  (("access-control-allow-methods", "get"), 76),
  (("access-control-allow-methods", "get, post, options"), 77),
  (("access-control-allow-methods", "options"), 78),
  (("access-control-expose-headers", "content-length"), 79),
  (("access-control-request-headers", "content-type"), 80),
  (("access-control-request-method", "get"), 81),
  (("access-control-request-method", "post"), 82),
  (("alt-svc", "clear"), 83),
  (("authorization", ""), 84),
  (("content-security-policy", "script-src 'none'; object-src 'none'; base-uri 'none'"), 85),
  (("early-data", "1"), 86),
  (("expect-ct", ""), 87),
  (("forwarded", ""), 88),
  (("if-range", ""), 89),
  (("origin", ""), 90),
  (("purpose", "prefetch"), 91),
  (("server", ""), 92),
  (("timing-allow-origin", "*"), 93),
  (("upgrade-insecure-requests", "1"), 94),
  (("user-agent", ""), 95),
  (("x-forwarded-for", ""), 96),
  (("x-frame-options", "deny"), 97),
  (("x-frame-options", "sameorigin"), 98)]

/-- The arms of the `match` in `StaticTable::find_name`, in order. -/
def find_name_arms : List (String × Nat) := [
  (":authority", 0),
  (":path", 1),
  ("age", 2),
  ("content-disposition", 3),
  ("content-length", 4),
  ("cookie", 5),
  ("date", 6),
  ("etag", 7),
  ("if-modified-since", 8),
  ("if-none-match", 9),
  ("last-modified", 10),
  ("link", 11),
  ("location", 12),
  ("referer", 13),
  ("set-cookie", 14),
  (":method", 15),
  (":scheme", 22),
  (":status", 24),
  ("accept", 29),
  ("accept-encoding", 31),
  ("accept-ranges", 32),
  ("access-control-allow-headers", 33),
  ("access-control-allow-origin", 35),
  ("cache-control", 36),
  ("content-encoding", 42),
  ("content-type", 44),
  ("range", 55),
  ("strict-transport-security", 56),
  ("vary", 59),
  ("x-content-type-options", 61),
  ("x-xss-protection", 62),
  ("accept-language", 72),
  ("access-control-allow-credentials", 73),
  ("access-control-allow-methods", 76),
  ("access-control-expose-headers", 79),
  ("access-control-request-headers", 80),
  ("access-control-request-method", 81),
  ("alt-svc", 83),
  ("authorization", 84),
  ("content-security-policy", 85),
  ("early-data", 86),
  ("expect-ct", 87),
  ("forwarded", 88),
  ("if-range", 89),
  ("origin", 90),
  ("purpose", 91),
  ("server", 92),
  ("timing-allow-origin", 93),
  ("upgrade-insecure-requests", 94),
  ("user-agent", 95),
  ("x-forwarded-for", 96),
  ("x-frame-options", 97)]

/-- A `match` on literals: the value of the first arm whose pattern is the scrutinee. -/
def match_arms {α : Type} [DecidableEq α] (arms : List (α × Nat)) (scrutinee : α) : Option Nat :=
  (arms.find? (fun arm => arm.1 = scrutinee)).map Prod.snd

theorem predefined_headers_length : PREDEFINED_HEADERS.length = 99 := by decide

private theorem predefined_headers_short :
    ∀ header ∈ PREDEFINED_HEADERS,
      header.1.utf8ByteSize < 2 ^ 64 ∧ header.2.utf8ByteSize < 2 ^ 64 := by
  decide +kernel

private theorem find_arms_agree :
    ∀ arm ∈ find_arms, PREDEFINED_HEADERS[arm.2]? = some arm.1 := by
  decide +kernel

private theorem find_name_arms_agree :
    ∀ arm ∈ find_name_arms, PREDEFINED_HEADERS[arm.2]?.map Prod.fst = some arm.1 := by
  decide +kernel

/-- What a `match` gives is in one of its arms. -/
theorem mem_of_match_arms {α : Type} [DecidableEq α] {arms : List (α × Nat)} {scrutinee : α}
    {value : Nat} (h : match_arms arms scrutinee = some value) : (scrutinee, value) ∈ arms := by
  obtain ⟨arm, harm, rfl⟩ := Option.map_eq_some_iff.mp h
  have hpattern := List.find?_some harm
  simp only [decide_eq_true_eq] at hpattern
  rw [← hpattern]
  exact List.mem_of_find?_eq_some harm

namespace StaticTable

def get (index : Nat) : Outcome DecodeError (Str × Str) :=
  match h : PREDEFINED_HEADERS[index]? with
  | some header =>
    have hshort := predefined_headers_short header (List.mem_of_getElem? h)
    ok (⟨header.1, hshort.1⟩, ⟨header.2, hshort.2⟩)
  | none => err .UnknownEntry

def find (name value : Str) : Option Nat :=
  match_arms find_arms (name.toString, value.toString)

def find_name (name : Str) : Option Nat :=
  match_arms find_name_arms name.toString

/-- `get` gives the entry of the table. -/
theorem get_eq_ok_iff {index : Nat} {header : Str × Str} :
    get index = ok header ↔
      PREDEFINED_HEADERS[index]? = some (header.1.toString, header.2.toString) := by
  unfold get
  split
  · rename_i entry hentry
    constructor
    · intro h
      cases h
      exact hentry
    · intro h
      obtain rfl := Option.some.inj (hentry.symm.trans h)
      rfl
  · rename_i hnone
    simp [hnone]

/-- There is an entry for every index of the table. -/
theorem get_of_lt {index : Nat} (h : index < 99) : ∃ header, get index = ok header := by
  rw [← predefined_headers_length] at h
  unfold get
  split
  · exact ⟨_, rfl⟩
  · rename_i hnone
    rw [List.getElem?_eq_none_iff] at hnone
    omega

/-- There is none for a larger index. -/
theorem get_of_le {index : Nat} (h : 99 ≤ index) : get index = err .UnknownEntry := by
  rw [← predefined_headers_length] at h
  unfold get
  split
  · rename_i header hsome
    rw [List.getElem?_eq_none h] at hsome
    cases hsome
  · rfl

theorem lt_of_get {index : Nat} {header : Str × Str} (h : get index = ok header) : index < 99 := by
  by_contra hnot
  rw [get_of_le (Nat.le_of_not_lt hnot)] at h
  cases h

/-- The full-match lookup agrees with the table the decoder reads. -/
theorem get_of_find {name value : Str} {index : Nat} (h : find name value = some index) :
    get index = ok (name, value) :=
  get_eq_ok_iff.mpr (find_arms_agree _ (mem_of_match_arms h))

/-- The name lookup agrees with the names of the table the decoder reads. -/
theorem get_of_find_name {name : Str} {index : Nat} (h : find_name name = some index) :
    ∃ value, get index = ok (name, value) := by
  have hagree := find_name_arms_agree _ (mem_of_match_arms h)
  obtain ⟨⟨name', value⟩, hentry, rfl⟩ := Option.map_eq_some_iff.mp hagree
  have hshort := predefined_headers_short _ (List.mem_of_getElem? hentry)
  exact ⟨⟨value, hshort.2⟩, get_eq_ok_iff.mpr hentry⟩

end StaticTable

end wt_proto.qpack
