import CodeAtlas.Number.Dyadic
import CodeAtlas.Outline.Grammar
import CodeAtlas.Text.Basic

/-!
Signals: what code looks like by the words in it. Frameworks and design patterns are recognised by
texts that occur, security, performance and diagnostic signals by how often they do, and endpoints
and database queries by patterns.
-/

namespace CodeAtlas

namespace Signals

open Pattern Text Grammar

/-- The frameworks of a language with the texts that give them away; the first hit counts. -/
def frameworks : Language → List (String × List String)
  | .php => [
    ("Laravel", ["Illuminate\\", "Artisan::", "Route::", "Schema::", "Eloquent"]),
    ("Symfony", ["Symfony\\", "use Doctrine\\", "@Route", "@Entity"]),
    ("CodeIgniter", ["$this->load->", "CI_Controller", "$this->db->"]),
    ("Zend", ["Zend\\", "Laminas\\"])]
  | .javascript => [
    ("React", ["import React", "useState", "useEffect", "jsx", "React.Component"]),
    ("Vue", ["Vue.component", "new Vue", "v-if", "v-for", "@click"]),
    ("Angular", ["@Component", "@Injectable", "ngOnInit", "Angular"]),
    ("Express", ["express()", "app.get", "app.post", "req.body"]),
    ("Next.js", ["next/", "getStaticProps", "getServerSideProps"])]
  | .typescript => [
    ("Angular", ["@Component", "@Injectable", "ngOnInit"]),
    ("NestJS", ["@Controller", "@Injectable", "@Get", "@Post"]),
    ("React", ["React.FC", "useState", "useEffect"])]
  | .python => [
    ("Django", ["django.", "models.Model", "HttpResponse", "render"]),
    ("Flask", ["from flask", "@app.route", "Flask(__name__)"]),
    ("FastAPI", ["from fastapi", "@app.get", "@app.post", "FastAPI()"])]
  | .java => [
    ("Spring", ["org.springframework", "@SpringBootApplication", "@RestController", "@Autowired"]),
    ("Jakarta EE", ["jakarta.ws.rs", "javax.ws.rs", "@Path("])]
  | .go => [
    ("Gin", ["github.com/gin-gonic/gin", "gin.Context", "gin.Default()"]),
    ("Echo", ["github.com/labstack/echo", "echo.Context", "echo.New()"])]
  | _ => []

/-- Design patterns with the texts that suggest them. -/
def designIndicators : List (String × List String) := [
  ("Singleton", ["private static $instance", "getInstance()", "private function __construct"]),
  ("Factory", ["Factory", "create()", "make()"]),
  ("Observer", ["Observer", "notify()", "attach()", "detach()"]),
  ("Strategy", ["Strategy", "execute()", "setStrategy()"]),
  ("Decorator", ["Decorator", "decorate()", "wrap()"]),
  ("Repository", ["Repository", "find()", "save()", "delete()"]),
  ("Service", ["Service", "handle()", "process()"]),
  ("Builder", ["Builder", "build()", "with()"])]

/-- Security topics with the texts that count for them. -/
def securityIndicators : List (String × List String) := [
  ("SQL Injection Risk", ["$_GET", "$_POST", "$_REQUEST", "query(", "exec("]),
  ("XSS Risk", ["echo $_", "print $_", "innerHTML", "document.write"]),
  ("CSRF Protection", ["csrf_token", "@csrf", "csrf_field"]),
  ("Authentication", ["Auth::", "login()", "authenticate()", "password_verify"]),
  ("Authorization", ["authorize()", "can()", "cannot()", "middleware"]),
  ("Encryption", ["encrypt()", "decrypt()", "hash()", "bcrypt()", "password_hash"]),
  ("Input Validation", ["validate()", "sanitize()", "filter_var", "htmlspecialchars"])]

/-- Performance topics with the texts that count for them. -/
def performanceIndicators : List (String × List String) := [
  ("Caching", ["Cache::", "cache()", "remember()", "Redis::", "Memcached"]),
  ("Database Optimization", ["with()", "eager loading", "chunk()", "cursor()"]),
  ("Async Operations", ["async", "await", "Promise", "setTimeout", "setInterval"]),
  ("Memory Management", ["unset()", "gc_collect_cycles()", "memory_get_usage()"]),
  ("Query Optimization", ["select()", "where()", "orderBy()", "limit()", "offset()"])]

/-- The diagnostic signal of code that handles errors. -/
def errorHandling : String := "error_handling"

/-- The diagnostic signal of code that logs. -/
def logging : String := "logging"

/-- A whole word. -/
def wholeWord (word : String) : Pattern :=
  boundary ++ text word ++ boundary

/-- Diagnostic signals with the patterns that count for them. -/
def diagnosticIndicators : List (String × List Pattern) := [
  (errorHandling,
    ["try", "catch", "except", "finally", "throw", "raise"].map wholeWord ++
      [boundary ++ text "recover()"]),
  (logging, [
    boundary ++ text "logger." ++ word1 ++ text "(",
    boundary ++ text "logging." ++ word1 ++ text "(",
    boundary ++ text "console." ++ anyText ["log", "error", "warn", "info", "debug"] ++ text "(",
    boundary ++ text "Log::" ++ word1 ++ text "(",
    boundary ++ text "log." ++
      anyText ["Print", "Fatal", "Panic", "Info", "Error", "Warn", "Debug"] ++ run0 isWordChar ++
      text "(",
    boundary ++ text "error_log("])]

/-- The words for HTTP methods. -/
def httpMethods : List String := ["get", "post", "put", "delete", "patch"]

/-- An HTTP method in any case, recorded. -/
def httpMethod : Pattern :=
  capture "method" (anyTextAnyCase httpMethods)

/-- A quoted path as the first argument. -/
def quotedPath : Pattern :=
  blank0 ++ text "(" ++ blank0 ++ quoted "path"

/-- A route on an application or router object. -/
def routerCall : Pattern :=
  boundary ++ oneOf [textAnyCase "app", textAnyCase "router"] ++ text "." ++ httpMethod ++
    quotedPath

/-- How endpoints look in a language. -/
def endpointPatterns : Language → List Pattern
  | .php => [textAnyCase "Route::" ++ httpMethod ++ quotedPath, textAnyCase "@Route" ++ quotedPath]
  | .javascript => [routerCall]
  | .typescript => [text "@" ++ httpMethod ++ quotedPath, routerCall]
  | .python => [
    text "@" ++ anyTextAnyCase ["app", "bp", "blueprint"] ++ textAnyCase ".route" ++ quotedPath,
    text "@" ++ optional (word1 ++ text ".") ++ httpMethod ++ quotedPath]
  | .java => [
    text "@" ++ capture "method" (anyText ["Get", "Post", "Put", "Delete", "Patch"]) ++
      text "Mapping" ++ blank0 ++ text "(" ++ blank0 ++
      optional (text "value" ++ blank0 ++ text "=" ++ blank0) ++ text "\"" ++
      capture "path" (run1 (· != '\x22')) ++ text "\""]
  | .go => [
    text "." ++ capture "method" (anyText ["GET", "POST", "PUT", "DELETE", "PATCH"]) ++ blank0 ++
      text "(" ++ blank0 ++ text "\"" ++ capture "path" (run1 (· != '\x22')) ++ text "\""]
  | _ => []

/-- A statement of the query language, from its verb to its first clause at most 200 characters
later, with no quote or semicolon between. -/
def sqlStatement : Pattern :=
  boundary ++ anyTextAnyCase ["SELECT", "INSERT", "UPDATE", "DELETE"] ++ blank1 ++
    run .fewer (some 200) (fun c => c != ';' && !isQuote c && c != '\x60') ++ boundary ++
    anyTextAnyCase ["FROM", "INTO", "SET", "WHERE"] ++ boundary

/-- A call of a document database. -/
def documentQuery : Pattern :=
  text "." ++ anyText ["find", "findOne", "insertOne", "updateOne", "deleteOne", "aggregate"] ++
    blank0 ++ text "("

/-- How database queries look in a language. -/
def queryPatterns : Language → List Pattern
  | .php => [
    textAnyCase "DB::" ++ anyTextAnyCase ["select", "insert", "update", "delete", "raw"] ++
      blank0 ++
      text "(",
    textAnyCase "$this->db->" ++ anyTextAnyCase ["get", "insert", "update", "delete", "query"] ++
      blank0 ++ text "(",
    sqlStatement]
  | .javascript => [documentQuery, sqlStatement]
  | .typescript => [documentQuery, sqlStatement]
  | .python => [
    text ".objects." ++
      anyText ["filter", "get", "create", "update", "delete", "raw", "exclude", "all"] ++ blank0 ++
      text "(",
    boundary ++ text "session." ++ anyText ["query", "execute", "add", "delete"] ++ blank0 ++
      text "(",
    sqlStatement]
  | .java => [sqlStatement]
  | .go => [sqlStatement]
  | _ => []

/-- A text of a table occurs in the content. -/
def occurs (content : List Char) (indicator : String) : Bool :=
  Text.occursIn indicator.toList content

/-- The first framework with a text that occurs. -/
def framework? (content : List Char) (language : Language) : Option String :=
  ((frameworks language).find? fun (_, texts) => texts.any (occurs content)).map (·.1)

/-- A design pattern counts from `minHits` distinct texts on; its confidence is the share of its
texts that occur. -/
def design (content : List Char) (minHits : Int) : List Signal :=
  designIndicators.filterMap fun (name, texts) =>
    let hits := texts.countP (occurs content)
    if minHits ≤ hits then
      some ⟨name, some (Number.roundTo 4 (Float.ofNat hits / Float.ofNat texts.length)), none⟩
    else none

/-- How often the texts occur together. -/
def occurrences (content : List Char) (texts : List String) : Nat :=
  texts.foldr (fun part n => countOccurrences part.toList content + n) 0

/-- The topics whose texts occur at least `least` times. -/
def clusters (table : List (String × List String)) (content : List Char) (least : Int) :
    List Signal :=
  table.filterMap fun (name, texts) =>
    let count := occurrences content texts
    if least ≤ count then some ⟨name, none, some count⟩ else none

/-- Security topics. -/
def security (content : List Char) (least : Int) : List Signal :=
  clusters securityIndicators content least

/-- Performance topics. -/
def performance (content : List Char) (least : Int) : List Signal :=
  clusters performanceIndicators content least

/-- Diagnostic signals that occur at least `least` times. -/
def diagnostic (content : List Char) (least : Int) : List Signal :=
  diagnosticIndicators.filterMap fun (name, patterns) =>
    let count : Nat := patterns.foldr (fun pattern n => pattern.count content + n) 0
    if least ≤ count then some ⟨name, none, some count⟩ else none

/-- The capital form of a method word; the long s counts as an `s`. -/
def capitalMethod (method : List Char) : String :=
  String.ofList (method.map fun c => (foldCase c).toUpper)

/-- The endpoints, by line. A pattern without a method stands for reading. -/
def endpoints (content : List Char) (language : Language) (starts : List Nat) : List Endpoint :=
  let found := (endpointPatterns language).flatMap fun pattern =>
    (pattern.findAll content).map fun m =>
      let method := (m.groupText? "method").getD "get".toList
      (⟨capitalMethod method, String.ofList ((m.groupText? "path").getD []),
        lineOf starts m.offset⟩ : Endpoint)
  found.mergeSort fun a b => a.line ≤ b.line

/-- The database queries, by line, each with its blanks collapsed and cut to 200 characters. -/
def queries (content : List Char) (language : Language) (starts : List Nat) :
    List DatabaseQuery :=
  let found := (queryPatterns language).flatMap fun pattern =>
    (pattern.findAll content).map fun m =>
      (⟨String.ofList ((joinWith [' '] (words m.text)).take 200), lineOf starts m.offset⟩ :
        DatabaseQuery)
  found.mergeSort fun a b => a.line ≤ b.line

end Signals

end CodeAtlas
