/-
The expansion of a declared method with the arguments of an invocation into a request. Nothing is
sent here, and the same arguments give the same request each time.
-/
import ResilientClient.Argument
import ResilientClient.Endpoint
import ResilientClient.Request

namespace ResilientClient.Endpoint

/-! ## Bindings -/

/-- Binds the placeholders that one argument feeds. -/
def bindArgument (args : List Argument) (bindings : Bindings) (entry : Nat × List String) :
    Bindings :=
  match args[entry.1]?.bind Argument.placeholderValues? with
  | some values => entry.2.foldl (fun bindings name => bindings.bind name values) bindings
  | none => bindings

/-- The bindings of all placeholders; where two arguments feed one, the later declaration counts. -/
def bindings (e : Endpoint) (args : List Argument) : Bindings :=
  e.placeholders.foldl (bindArgument args) []

/-- The entries of the map argument at a position. -/
def mapEntries (args : List Argument) (index : Option Nat) : List (String × List String) :=
  match index.bind fun i => args[i]? with
  | some (.map entries) => entries
  | _ => []

/-! ## URL -/

/-- A base URL without the slashes at its end. -/
def trimSlashes (base : String) : String :=
  String.ofList ((base.toList.reverse.dropWhile (· == '/')).reverse)

/-- A path under a base URL; a slash is put between them unless the path is empty or brings a slash
or a question mark. -/
def joinBase (base path : String) : String :=
  match path.toList.head? with
  | none => trimSlashes base
  | some c =>
    if c == '/' || c == '?' then trimSlashes base ++ path else trimSlashes base ++ "/" ++ path

/-- The written pairs of the declared query parameters. -/
def declaredPairs (e : Endpoint) (bindings : Bindings) : List String :=
  e.queries.flatMap fun entry =>
    entry.2.flatMap fun template =>
      (template.expandValues bindings .percent).map fun value =>
        Text.Percent.encode entry.1 ++ "=" ++ value

/-- The written pairs of a query map. -/
def mapPairs (entries : List (String × List String)) : List String :=
  (Argument.flatten entries).map fun pair =>
    Text.Percent.encode pair.1 ++ "=" ++ Text.Percent.encode pair.2

/-- The query: the declared parameters, then those of the query map. -/
def query (e : Endpoint) (args : List Argument) : String :=
  Text.join "&" (e.declaredPairs (e.bindings args) ++ mapPairs (mapEntries args e.queryMapIndex))

/-- Puts a query behind a URL, after the query that the URL may have. -/
def addQuery (url query : String) : String :=
  if query.isEmpty then url
  else
    let last := url.toList.getLast?
    if last == some '?' || last == some '&' then url ++ query
    else if url.toList.contains '?' then url ++ "&" ++ query
    else url ++ "?" ++ query

/-- The text of the URL. -/
def urlText (e : Endpoint) (args : List Argument) (base : String) : String :=
  addQuery (joinBase base (e.path.expand (e.bindings args) .percent)) (e.query args)

/-- Reads a URL, which has to have a scheme and an authority. -/
def parseUrl (url : String) : Except Error Http.Uri :=
  match Http.Uri.parse url with
  | .error fault => .error (.invalidUrl url .unreadable fault.text)
  | .ok uri =>
    if uri.scheme.isNone then .error (.invalidUrl url .noScheme "expanded URL has no scheme")
    else if uri.authority.isNone then
      .error (.invalidUrl url .noAuthority "expanded URL has no host")
    else .ok uri

/-! ## Headers -/

/-- A text as the value of a header. -/
def headerField (name : Http.HeaderName) (value : String) :
    Except Error (Http.HeaderName × Http.HeaderValue) :=
  match Http.HeaderValue.ofText? value with
  | some v => .ok (name, v)
  | none => .error .invalidHeaderValue

/-- The fields of one declared header. -/
def declaredFields (bindings : Bindings) (entry : Http.HeaderName × List Template) :
    Except Error (List (Http.HeaderName × Http.HeaderValue)) :=
  (entry.2.flatMap fun template => template.expandValues bindings .verbatim).mapM
    (headerField entry.1)

/-- The fields of one entry of a header map. -/
def mapFields (entry : String × List String) :
    Except Error (List (Http.HeaderName × Http.HeaderValue)) :=
  match Http.HeaderName.parse? entry.1 with
  | some name => entry.2.mapM (headerField name)
  | none => .error .invalidHeaderName

/-- The fields in order: the declared ones, then those of the header map. -/
def headerFields (e : Endpoint) (args : List Argument) :
    Except Error (List (Http.HeaderName × Http.HeaderValue)) :=
  match e.headers.mapM (declaredFields (e.bindings args)) with
  | .error error => .error error
  | .ok declared =>
    match (mapEntries args e.headerMapIndex).mapM mapFields with
    | .error error => .error error
    | .ok mapped => .ok (declared.flatten ++ mapped.flatten)

/-! ## Body -/

/-- The body that an argument becomes. -/
def bodyOf : Argument → RequestBody
  | .absent => .empty
  | .body body => body
  | .value text => .bytes (Bytes.ofText text)
  | .values texts => .ofChunks (texts.map Bytes.ofText)
  | .map entries => .ofPairs (Argument.flatten entries)

/-- The body of the request. -/
def requestBody (e : Endpoint) (args : List Argument) : RequestBody :=
  match e.bodyIndex.bind fun i => args[i]? with
  | some argument => bodyOf argument
  | none => .empty

/-! ## Request -/

/-- The content type of a form. -/
def formType : Http.HeaderValue := ⟨Bytes.ofText "application/x-www-form-urlencoded"⟩

/-- The headers of a request; a form names its content type unless one is given. -/
def withFormType (headers : Http.Headers) (body : RequestBody) : Http.Headers :=
  if body.isForm && !headers.contains .contentType then headers.append .contentType formType
  else headers

/-- The request for the given arguments under a base URL; of several faults that of the URL comes
first. -/
def expand (e : Endpoint) (args : List Argument) (base : String) : Except Error Request :=
  match parseUrl (e.urlText args base) with
  | .error error => .error error
  | .ok uri =>
    match e.headerFields args with
    | .error error => .error error
    | .ok fields =>
      let body := e.requestBody args
      .ok ⟨e.key, e.verb, uri, withFormType (Http.Headers.ofPairs fields) body, body⟩

end ResilientClient.Endpoint
