import Krb5.Gss.Delivery

/-!
# The size of wrapped messages (`wrap_size_limit.c`)

`krb5_gss_wrap_size_limit` takes the size of a token for as much data as the token may
have octets, and allows for a message as much less than that as it is too large.
-/

namespace Krb5.Gss

section Limit

variable {ctx : Ctx} {req : UInt32} {text : Octets} {encrypt : Bool}

end Limit

end Krb5.Gss
